import AgentProof.Platform.Interchange
import AgentProof.Platform.Sessions

/-!
# Platform/Refinement — the in-memory store as the specification of the database

`PlatformStore` carries out one operation at a time; a database serves many sessions at once.
`Sessions.refines`: what the sessions see is what `PlatformStore` would have told them, one after
the other in some order, up to generated ids and timestamps.
-/

open Machinery Machinery.Prog

namespace AgentProof

open PlatformStore (storedEvent sortBySequenceNo)

variable [Interpreter] [Sha256]

/-! ## What an operation adds -/

/-- The operation appends an event under this id. -/
def StoreOp.Appends (eventId : UUID) (op : StoreOp) : Prop :=
  ∃ id payload, op = .appendTraceEvent id payload ∧ payload.id = eventId

namespace PlatformStore

variable {now : Timestamp} {newId : UUID} {store store' : PlatformStore} {op : StoreOp}
  {outcome : Except PyError StoreReply}

omit [Interpreter] [Sha256] in
/-- The keys of a dictionary that an entry is put into. -/
theorem mem_keys_set {α : Type} {d : Dict UUID α} {id id' : UUID} {v : α}
    (h : id' ∈ (Dict.set d id v).map Prod.fst) : id' = id ∨ id' ∈ d.map Prod.fst := by
  obtain ⟨entry, hentry, rfl⟩ := List.mem_map.mp h
  rcases Dict.mem_set hentry with rfl | hmem
  · exact .inl rfl
  · exact .inr (List.mem_map_of_mem hmem)

omit [Interpreter] [Sha256] in
/-- Where an id can come from. -/
theorem mem_ids_iff {id : UUID} :
    id ∈ store.ids ↔ id ∈ store.agentVersions.map Prod.fst ∨ id ∈ store.runs.map Prod.fst ∨
      id ∈ store.executions.map Prod.fst ∨
      id ∈ (Dict.items store.verdictsByExecution).map fun verdict => verdict.id := by
  simp only [ids, Dict.items, List.mem_append, or_assoc]

/-- **The only id an operation adds is the one it is offered.** -/
theorem Effect.mem_ids (h : Effect now newId store op outcome store') {id : UUID}
    (hid : id ∈ store'.ids) : id ∈ store.ids ∨ id = newId := by
  rw [mem_ids_iff] at hid ⊢
  cases h with
  | versionCreated =>
    rcases hid with hid | hid
    · exact (mem_keys_set hid).symm.imp_left .inl
    · exact .inl (.inr hid)
  | runCreated =>
    rcases hid with hid | hid | hid
    · exact .inl (.inl hid)
    · exact (mem_keys_set hid).symm.imp_left fun hid => .inr (.inl hid)
    · exact .inl (.inr (.inr hid))
  | executionCreated =>
    rcases hid with hid | hid | hid | hid
    · exact .inl (.inl hid)
    · exact .inl (.inr (.inl hid))
    · exact (mem_keys_set hid).symm.imp_left fun hid => .inr (.inr (.inl hid))
    · exact .inl (.inr (.inr (.inr hid)))
  | resultRecorded hexecution =>
    have hhas := Dict.has_iff.mpr ⟨_, getExecution_eq_ok_iff.mp hexecution⟩
    rw [Dict.map_fst_set hhas] at hid
    exact .inl hid
  | @verdictAppended executionId payload execution hexecution =>
    have hperm : (Dict.items (Dict.set store.verdictsByExecution executionId
        (store.verdicts executionId ++ [payload.verdict newId executionId now]))).Perm
        (Dict.items store.verdictsByExecution ++ [payload.verdict newId executionId now]) :=
      Dict.perm_items_set (.refl _)
    rw [(hperm.map fun verdict => verdict.id).mem_iff, List.map_append, List.mem_append,
      List.map_singleton, List.mem_singleton, ← or_assoc, ← or_assoc, ← or_assoc] at hid
    rw [← or_assoc, ← or_assoc]
    exact hid
  | verdictsRead =>
    rw [touchVerdicts, Dict.items_setDefault] at hid
    exact .inl hid
  | _ => exact .inl hid

omit [Interpreter] [Sha256] in
/-- The events of the store, under the executions they are of. -/
theorem hasEvent_iff {eventId : UUID} :
    store.HasEvent eventId ↔ ∃ id, ∃ event ∈ store.events id, event.id = eventId := by
  constructor
  · rintro ⟨id, -, event, hmem, rfl⟩
    exact ⟨id, event, hmem, rfl⟩
  · rintro ⟨id, event, hmem, rfl⟩
    refine ⟨id, ?_, event, hmem, rfl⟩
    by_contra hnone
    rw [events, Dict.get?_eq_none_iff.mpr hnone] at hmem
    cases hmem

/-- **The only event an operation adds is the one it appends.** -/
theorem Effect.hasEvent (h : Effect now newId store op outcome store') {eventId : UUID}
    (hevent : store'.HasEvent eventId) : store.HasEvent eventId ∨ op.Appends eventId := by
  rw [hasEvent_iff] at hevent ⊢
  cases h with
  | @eventAppended id payload execution hexecution hfree =>
    obtain ⟨id', event, hmem, rfl⟩ := hevent
    rw [events, Dict.get?_set] at hmem
    split_ifs at hmem with hid
    · rw [Option.getD_some, sortBySequenceNo, List.mem_insertionSort, List.mem_append,
        List.mem_singleton] at hmem
      rcases hmem with hmem | rfl
      · exact .inl ⟨id, event, hmem, rfl⟩
      · exact .inr ⟨id, payload, rfl, rfl⟩
    · exact .inl ⟨id', event, hmem, rfl⟩
  | @traceRead id execution hexecution =>
    obtain ⟨id', event, hmem, rfl⟩ := hevent
    rw [events, touchEvents, Dict.getD_get?_setDefault] at hmem
    exact .inl ⟨id', event, hmem, rfl⟩
  | _ => exact .inl hevent

end PlatformStore

/-! ## Sessions on both stores -/

/-- Operations that bring ids of their own: those the stores offer are new, and so are those of the
events. -/
structure Workload {ι : Type} (store : PlatformStore) (calls : ι → StoreCall) : Prop where
  newIds : ∀ i j, (calls i).newId = (calls j).newId → i = j
  fresh : ∀ i, (calls i).newId ∉ store.ids
  eventIds : ∀ eventId i j, (calls i).op.Appends eventId → (calls j).op.Appends eventId → i = j
  newEvents : ∀ eventId i, (calls i).op.Appends eventId → ¬ store.HasEvent eventId

/-- The operation of a client of the database, at the time that store reads. -/
def StoreCall.onDatabase (σ : UUID → UUID) (now : Timestamp) (call : StoreCall) : StoreCall where
  op := call.op.rename σ
  now := now
  newId := σ call.newId

/-- A transaction has something to do. -/
theorem PostgresStore.exists_call (now : Timestamp) (newId : UUID) (op : StoreOp) :
    ∃ c k, transaction now newId op = .call c k := by
  have hempty : Tables.HashesNodup {} := List.nodup_nil
  have hatomic := atomic_transaction now newId hempty op
  cases h : transaction now newId op with
  | call c k => exact ⟨c, k, rfl⟩
  | done r =>
    rw [h] at hatomic
    exact hatomic.elim

namespace Sessions

variable {ι : Type} {calls : ι → StoreCall} {σ : UUID → UUID} {now : ι → Timestamp}
  {store store' : PlatformStore} {db : Tables} {order : List ι} {performed : List Performed}
  {u u' : Sessions ι}

variable (calls σ now db store) in
/-- Sessions that ran alone in an order, and the in-memory store that was told the same: they have
seen what it said, and have left what it left. -/
structure Refines (order : List ι) (u : Sessions ι) (performed : List Performed)
    (store' : PlatformStore) : Prop where
  nodup : order.Nodup
  stands : ∀ i, i ∈ order ∧ (∃ r, u.thread i = .done r) ∨ i ∉ order ∧
    u.thread i = (Sessions.initial (fun i => (calls i).onDatabase σ (now i)) db).thread i
  run : Execution PlatformStore.Step store performed store'
  told : List.Forall₂ (fun i p => p.toStoreCall = calls i ∧
    ∃ outcome, u.outcome? i = some outcome ∧ SameOutcome σ p.outcome outcome) order performed
  wellFormed : store'.WellFormed
  mirrors : Mirrors σ store' u.shared
  ids : ∀ id ∈ store'.ids, id ∈ store.ids ∨ ∃ i ∈ order, (calls i).newId = id
  events : ∀ eventId, store'.HasEvent eventId →
    store.HasEvent eventId ∨ ∃ i ∈ order, (calls i).op.Appends eventId

theorem Refines.initial (hstore : store.WellFormed) (hmirrors : Mirrors σ store db) :
    Refines calls σ now store db [] (Sessions.initial (fun i => (calls i).onDatabase σ (now i)) db)
      [] store where
  nodup := List.nodup_nil
  stands _ := .inr ⟨List.not_mem_nil, rfl⟩
  run := .nil store
  told := .nil
  wellFormed := hstore
  mirrors := hmirrors
  ids _ hid := .inl hid
  events _ hevent := .inl hevent

variable [DecidableEq ι]

/-- **Step lemma**: a session that runs alone is told what the in-memory store says next. -/
theorem Refines.step (hσ : Function.Injective σ) (hworkload : Workload store calls)
    (h : Refines calls σ now store db order u performed store') {i : ι}
    (hstep : Threads.RunsAlone Tables.handle i u u') :
    ∃ p store'', Refines calls σ now store db (order ++ [i]) u' (performed ++ [p]) store'' := by
  obtain @⟨c, k, hi, scans⟩ := hstep
  obtain ⟨hnew, hstart⟩ : i ∉ order ∧ u.thread i =
      PostgresStore.transaction (now i) (σ (calls i).newId) ((calls i).op.rename σ) := by
    rcases h.stands i with ⟨-, r, hr⟩ | hstands
    · rw [hi] at hr
      cases hr
    · exact hstands
  have hfresh : (calls i).newId ∉ store'.ids := fun hid => by
    rcases h.ids _ hid with hid | ⟨j, hj, heq⟩
    · exact hworkload.fresh i hid
    · exact hnew (hworkload.newIds j i heq ▸ hj)
  have hevent : ¬ store'.ReusesEventId (calls i).op := fun hreuses => by
    cases hop : (calls i).op with
    | appendTraceEvent id payload =>
      rw [hop] at hreuses
      obtain ⟨-, -, hused⟩ := hreuses
      have happends : (calls i).op.Appends payload.id := ⟨id, payload, hop, rfl⟩
      rcases h.events _ hused with hused | ⟨j, hj, hjappends⟩
      · exact hworkload.newEvents _ i happends hused
      · exact hnew (hworkload.eventIds _ j i hjappends happends ▸ hj)
    | _ =>
      rw [hop] at hreuses
      exact hreuses
  have hcorresponds : Corresponds σ
      (store'.perform (calls i).now (calls i).newId (calls i).op)
      ((PostgresStore.transaction (now i) (σ (calls i).newId) ((calls i).op.rename σ)).exec
        Tables.handle scans u.shared) :=
    h.mirrors.corresponds h.wellFormed hσ hfresh hevent
  obtain ⟨houtcome, hmirrors⟩ := hcorresponds
  have heffect := PlatformStore.perform_effect (calls i).now (calls i).newId store' (calls i).op
  rw [hstart]
  refine ⟨⟨calls i, _⟩, _, ?_, fun j => ?_, h.run.snoc (.perform store' (calls i) hfresh), ?_,
    h.wellFormed.effect hfresh heffect, hmirrors, fun id hid => ?_, fun eventId hid => ?_⟩
  · exact List.nodup_append.mpr ⟨h.nodup, List.nodup_singleton i, fun a ha b hb hab =>
      hnew (List.mem_singleton.mp hb ▸ hab ▸ ha)⟩
  · by_cases hji : j = i
    · subst hji
      exact .inl ⟨List.mem_append_right _ (List.mem_singleton_self j), _, u.advance_thread_self _ _ _⟩
    · rw [u.advance_thread_of_ne _ _ _ hji]
      rcases h.stands j with ⟨hj, hended⟩ | ⟨hj, hstands⟩
      · exact .inl ⟨List.mem_append_left _ hj, hended⟩
      · refine .inr ⟨fun hmem => ?_, hstands⟩
        exact (List.mem_append.mp hmem).elim hj fun hmem => hji (List.mem_singleton.mp hmem)
  · refine List.rel_append (h.told.imp fun j p hp => ?_) (.cons ⟨rfl, _, ?_, houtcome⟩ .nil)
    · obtain ⟨hcall, outcome, hj, hsame⟩ := hp
      refine ⟨hcall, outcome, ?_, hsame⟩
      have hji : j ≠ i := by
        rintro rfl
        rw [Threads.outcome?, hi] at hj
        cases hj
      rw [Threads.outcome?, u.advance_thread_of_ne _ _ _ hji]
      exact hj
    · rw [Threads.outcome?, u.advance_thread_self]
  · rcases heffect.mem_ids hid with hid | rfl
    · refine (h.ids id hid).imp_right (Exists.imp fun j hj => ?_)
      exact ⟨List.mem_append_left _ hj.1, hj.2⟩
    · exact .inr ⟨i, List.mem_append_right _ (List.mem_singleton_self i), rfl⟩
  · rcases heffect.hasEvent hid with hid | happends
    · refine (h.events eventId hid).imp_right (Exists.imp fun j hj => ?_)
      exact ⟨List.mem_append_left _ hj.1, hj.2⟩
    · exact .inr ⟨i, List.mem_append_right _ (List.mem_singleton_self i), happends⟩

/-- **A database that serves many sessions refines the in-memory store**: in any run whose updates
are on time, the sessions that have ended were told what the in-memory store says when it carries
out their operations one after the other, in an order in which their commands came; and the tables
hold what it holds. -/
theorem refines (hσ : Function.Injective σ) (hstore : store.WellFormed)
    (hmirrors : Mirrors σ store db) (hworkload : Workload store calls) {labels : List ι}
    {t : Sessions ι} (h : Execution (Threads.IssuesTimely Tables.handle Tables.OnTime)
      (Sessions.initial (fun i => (calls i).onDatabase σ (now i)) db) labels t) :
    ∃ order performed store', order.Sublist labels ∧ order.Nodup ∧
      (∀ i, i ∈ order ↔ ∃ outcome, t.outcome? i = some outcome) ∧
      Execution PlatformStore.Step store performed store' ∧
      List.Forall₂ (fun i p => p.toStoreCall = calls i ∧
        ∃ outcome, t.outcome? i = some outcome ∧ SameOutcome σ p.outcome outcome) order performed ∧
      Mirrors σ store' t.shared := by
  have hhashes : db.HashesNodup := hmirrors.map_contentHash.subst hstore.hashes_nodup
  obtain ⟨order, u, hsub, hrun, hshared, houtcome⟩ := Threads.serializable Tables.growth
    (fun i => PostgresStore.atomic_transaction _ _ hhashes _) h
  obtain ⟨performed, store', hrefines⟩ : ∃ performed store',
      Refines calls σ now store db order u performed store' := by
    refine hrun.invariant (P := fun order u => ∃ performed store',
      Refines calls σ now store db order u performed store') ⟨[], store, .initial hstore hmirrors⟩ ?_
    rintro order i v v' ⟨performed, store', hv⟩ hstep
    obtain ⟨p, store'', hv'⟩ := hv.step hσ hworkload hstep
    exact ⟨performed ++ [p], store'', hv'⟩
  refine ⟨order, performed, store', hsub, hrefines.nodup, fun i => ?_, hrefines.run, ?_, ?_⟩
  · rw [← houtcome i, Threads.outcome?]
    rcases hrefines.stands i with ⟨hi, r, hr⟩ | ⟨hi, hstart⟩
    · rw [hr]
      exact ⟨fun _ => ⟨r, rfl⟩, fun _ => hi⟩
    · obtain ⟨c, k, hcall⟩ := PostgresStore.exists_call (now i) (σ (calls i).newId)
        ((calls i).op.rename σ)
      rw [hstart.trans hcall]
      refine iff_of_false hi ?_
      rintro ⟨_, hr⟩
      cases hr
  · refine hrefines.told.imp fun i p hp => ⟨hp.1, ?_⟩
    rw [← houtcome i]
    exact hp.2
  · exact hshared ▸ hrefines.mirrors

end Sessions

/-! ### Two sessions -/

omit [Interpreter] [Sha256] in
/-- Two callers of the database, whose callers' keys are its own. -/
theorem refines_race :
    let _ := cpython
    let _ := sha256
    ∃ t ∈ (Sessions.initial (fun i => (bothCreate i).onDatabase databaseId 2) {}).play Tables.handle
        default [true, false, true, false, false, false],
      (∀ renamed, ∃ outcome, t.outcome? renamed = some outcome) ∧
      ∃ order performed store', order.Nodup ∧ (∀ i, i ∈ order) ∧
        Execution PlatformStore.Step {} performed store' ∧
        List.Forall₂ (fun i p => p.toStoreCall = bothCreate i ∧ ∃ outcome,
          t.outcome? i = some outcome ∧ SameOutcome databaseId p.outcome outcome) order performed ∧
        Mirrors databaseId store' t.shared := by
  intro _ _
  have hrun : ∃ t ∈ (Sessions.initial (fun i => (bothCreate i).onDatabase databaseId 2) {}).play
      Tables.handle default [true, false, true, false, false, false],
      ∀ renamed, (t.outcome? renamed).isSome := by decide +kernel
  obtain ⟨t, hplay, hended⟩ := hrun
  have htimely := (Sessions.timely_or_finalizedTwice (Threads.execution_play hplay)).resolve_right
    fun ⟨_, _, _, _, ⟨⟨_, hop⟩, _⟩, _⟩ => by cases hop
  have hworkload : Workload {} bothCreate := {
    newIds := by decide
    fresh := by decide
    eventIds := fun _ _ _ ⟨_, _, hop, _⟩ => by cases hop
    newEvents := fun _ _ ⟨_, _, hop, _⟩ => by cases hop }
  obtain ⟨order, performed, store', -, hnodup, horder, hsteps, htold, hmirrors⟩ :=
    Sessions.refines databaseId_injective .empty .empty hworkload htimely
  have houtcome : ∀ renamed, ∃ outcome, t.outcome? renamed = some outcome :=
    fun renamed => Option.isSome_iff_exists.mp (hended renamed)
  exact ⟨t, hplay, houtcome, order, performed, store', hnodup,
    fun i => (horder i).mpr (houtcome i), hsteps, htold, hmirrors⟩

end AgentProof
