import AgentProof.Benchmark.Tasks
import AgentProof.Platform.Extensional
import AgentProof.Platform.ReadBack
import AgentProof.Platform.Versioning

/-!
# Benchmark/Serialization — suite snapshots

A suite is written as a JSON file with the hash of its tasks, and read back field by field; the tasks
read are hashed again and the two hashes compared.  The dataclasses check no types, so what
`task_from_dict` builds of a file that was tampered with is a `TaskObject`, whose fields are any JSON
values.

* `taskFromDict_taskToDict` — the decoder inverts the encoder, up to the order of keys;
* `computeContentHash_eq_iff` — the hash determines the tasks up to the order of keys;
* `suiteSnapshot_integrity` — a snapshot is read back exactly if it is the one that was hashed.
-/

open Machinery Machinery.Raising

namespace AgentProof

/-! ## Objects of the dataclasses -/

/-- An `ExpectedAction` object -/
structure ExpectedObject where
  service : Json
  operation : Json
  arguments : Json

/-- A `ForbiddenAction` object -/
structure ForbiddenObject where
  service : Json
  operation : Json
  reason : Json
  arguments : Json

/-- A `BenchmarkTask` object -/
structure TaskObject where
  taskId : Json
  input : Json
  initialState : Json
  expectedActions : List ExpectedObject
  forbiddenActions : List ForbiddenObject
  expectedFinalState : Json
  tags : List Json
  difficulty : Difficulty

/-- A task as an object. -/
def BenchmarkTask.object (task : BenchmarkTask) : TaskObject where
  taskId := .str task.taskId
  input := .str task.input
  initialState := .obj task.initialState
  expectedActions := task.expectedActions.map fun action =>
    ⟨.str action.service, .str action.operation, .obj action.arguments⟩
  forbiddenActions := task.forbiddenActions.map fun action =>
    ⟨.str action.service, .str action.operation, .str action.reason, .obj action.arguments⟩
  expectedFinalState := .obj task.expectedFinalState
  tags := task.tags.map .str
  difficulty := task.difficulty

/-- `difficulty.value` -/
def Difficulty.value : Difficulty → String
  | .easy => "easy"
  | .medium => "medium"
  | .hard => "hard"

/-! ## To and from dictionaries -/

/-- `_expected_action_to_dict` -/
def expectedActionToDict (action : ExpectedObject) : Json :=
  .obj [("service", action.service), ("operation", action.operation),
    ("arguments", action.arguments)]

/-- `_forbidden_action_to_dict` -/
def forbiddenActionToDict (action : ForbiddenObject) : Json :=
  .obj [("service", action.service), ("operation", action.operation), ("reason", action.reason),
    ("arguments", action.arguments)]

/-- `task_to_dict` -/
def taskToDict (task : TaskObject) : Json :=
  .obj [("task_id", task.taskId), ("input", task.input), ("initial_state", task.initialState),
    ("expected_actions", .arr (task.expectedActions.map expectedActionToDict)),
    ("forbidden_actions", .arr (task.forbiddenActions.map forbiddenActionToDict)),
    ("expected_final_state", task.expectedFinalState), ("tags", .arr task.tags),
    ("difficulty", .str task.difficulty.value)]

section

variable [Interpreter]

/-- `Difficulty(value)` -/
def Difficulty.ofValue (value : Json) : Except PyError Difficulty :=
  if value = .str "easy" then .ok .easy
  else if value = .str "medium" then .ok .medium
  else if value = .str "hard" then .ok .hard
  else .error (.valueError s!"{value.repr} is not a valid Difficulty")

/-- An item of `expected_actions` -/
def expectedActionFromDict (action : Json) : Except PyError ExpectedObject := do
  return ⟨← action.subscript "service", ← action.subscript "operation",
    ← action.dictGet (.str "arguments") (.obj [])⟩

/-- An item of `forbidden_actions` -/
def forbiddenActionFromDict (action : Json) : Except PyError ForbiddenObject := do
  return ⟨← action.subscript "service", ← action.subscript "operation",
    ← action.subscript "reason", ← action.dictGet (.str "arguments") (.obj [])⟩

/-- `task_from_dict` -/
def taskFromDict (data : Json) : Except PyError TaskObject := do
  let taskId ← data.subscript "task_id"
  let input ← data.subscript "input"
  let initialState ← data.subscript "initial_state"
  let expectedActions ← (← (← data.subscript "expected_actions").iter).mapM expectedActionFromDict
  let forbiddenActions ←
    (← (← data.subscript "forbidden_actions").iter).mapM forbiddenActionFromDict
  let expectedFinalState ← data.subscript "expected_final_state"
  let tags ← (← data.subscript "tags").iter
  let difficulty ← Difficulty.ofValue (← data.subscript "difficulty")
  return { taskId, input, initialState, expectedActions, forbiddenActions, expectedFinalState,
           tags, difficulty }

/-! ## Snapshots -/

/-- `SuiteSnapshot` -/
structure SuiteSnapshot where
  tasks : List TaskObject
  contentHash : String

variable [Sha256]

/-- `compute_content_hash` -/
def computeContentHash (tasks : List TaskObject) : String :=
  Sha256.hexdigest ((Json.arr (tasks.map taskToDict)).dumpsWith inLine)

/-- `snapshot_suite` -/
def snapshotSuite (tasks : List TaskObject) : SuiteSnapshot := ⟨tasks, computeContentHash tasks⟩

/-- The dictionary that `save_suite_snapshot` writes. -/
def SuiteSnapshot.payload (snapshot : SuiteSnapshot) : Json :=
  .obj [("content_hash", .str snapshot.contentHash),
    ("tasks", .arr (snapshot.tasks.map taskToDict))]

/-- `save_suite_snapshot`: the text of the file. -/
def saveSuiteSnapshot (snapshot : SuiteSnapshot) : String := snapshot.payload.dumpsWith indented

/-- The tasks of a payload. -/
def decodeTasks (payload : Json) : Except PyError (List TaskObject) := do
  (← (← payload.subscript "tasks").iter).mapM taskFromDict

/-- The message of a `SuiteIntegrityError` -/
def integrityMessage (path expected computed : String) : String :=
  s!"Suite snapshot at {path} failed its integrity check: " ++
    s!"expected {expected}, computed {computed}"

/-- `load_suite_snapshot`, of a file with a text.  A text that is no JSON raises with the text. -/
def loadSuiteSnapshot (path text : String) : Except PyError SuiteSnapshot := do
  let payload ← match loads text with
    | some payload => .ok payload
    | none => .error (.other "JSONDecodeError" text)
  let tasks ← decodeTasks payload
  let expectedHash ← payload.subscript "content_hash"
  let actualHash := computeContentHash tasks
  if Json.pyEq (.str actualHash) expectedHash then return ⟨tasks, actualHash⟩
  else .error (.other "SuiteIntegrityError"
    (integrityMessage path expectedHash.format actualHash))

end

/-! ## Equal objects -/

/-- Two objects with related fields. -/
structure ExpectedObject.Related (r : Json → Json → Prop) (a b : ExpectedObject) : Prop where
  service : r a.service b.service
  operation : r a.operation b.operation
  arguments : r a.arguments b.arguments

/-- Two objects with related fields. -/
structure ForbiddenObject.Related (r : Json → Json → Prop) (a b : ForbiddenObject) : Prop where
  service : r a.service b.service
  operation : r a.operation b.operation
  reason : r a.reason b.reason
  arguments : r a.arguments b.arguments

/-- Two tasks with related fields: as many actions and tags, related in order, and the same
difficulty.  With `==` for the relation this is the `==` of the dataclass. -/
structure TaskObject.Related (r : Json → Json → Prop) (a b : TaskObject) : Prop where
  taskId : r a.taskId b.taskId
  input : r a.input b.input
  initialState : r a.initialState b.initialState
  expectedActions : List.Forall₂ (ExpectedObject.Related r) a.expectedActions b.expectedActions
  forbiddenActions : List.Forall₂ (ForbiddenObject.Related r) a.forbiddenActions b.forbiddenActions
  expectedFinalState : r a.expectedFinalState b.expectedFinalState
  tags : List.Forall₂ r a.tags b.tags
  difficulty : a.difficulty = b.difficulty

/-- `a == b`, of snapshots -/
structure SuiteSnapshot.Equal (a b : SuiteSnapshot) : Prop where
  tasks : List.Forall₂ (TaskObject.Related Json.Alike) a.tasks b.tasks
  contentHash : a.contentHash = b.contentHash

section Related

variable {E : Json → Json → Prop} (hE : Json.Extensional E)
include hE

theorem related_expected_iff {a b : ExpectedObject} :
    E (expectedActionToDict a) (expectedActionToDict b) ↔ a.Related E b := by
  unfold expectedActionToDict
  rw [hE.obj_iff_forall₂]
  · simp only [List.map_cons, List.map_nil, List.forall₂_cons, List.forall₂_nil_right_iff, and_true]
    exact ⟨fun h => ⟨h.1, h.2.1, h.2.2⟩, fun h => ⟨h.service, h.operation, h.arguments⟩⟩
  · rfl
  · simp

theorem related_forbidden_iff {a b : ForbiddenObject} :
    E (forbiddenActionToDict a) (forbiddenActionToDict b) ↔ a.Related E b := by
  unfold forbiddenActionToDict
  rw [hE.obj_iff_forall₂]
  · simp only [List.map_cons, List.map_nil, List.forall₂_cons, List.forall₂_nil_right_iff, and_true]
    exact ⟨fun h => ⟨h.1, h.2.1, h.2.2.1, h.2.2.2⟩,
      fun h => ⟨h.service, h.operation, h.reason, h.arguments⟩⟩
  · rfl
  · simp

/-- **Two tasks are equal when their dictionaries are.** -/
theorem related_task_iff {a b : TaskObject} : E (taskToDict a) (taskToDict b) ↔ a.Related E b := by
  have hdifficulty : E (.str a.difficulty.value) (.str b.difficulty.value) ↔
      a.difficulty = b.difficulty := by
    rw [hE.str_iff, Json.str.injEq]
    cases a.difficulty <;> cases b.difficulty <;> decide
  unfold taskToDict
  rw [hE.obj_iff_forall₂]
  · simp only [List.map_cons, List.map_nil, List.forall₂_cons, List.forall₂_nil_right_iff, and_true,
      hE.arr_iff, List.forall₂_map_left_iff, List.forall₂_map_right_iff, related_expected_iff hE,
      related_forbidden_iff hE, hdifficulty]
    exact ⟨fun ⟨h₁, h₂, h₃, h₄, h₅, h₆, h₇, h₈⟩ => ⟨h₁, h₂, h₃, h₄, h₅, h₆, h₇, h₈⟩,
      fun h => ⟨h.taskId, h.input, h.initialState, h.expectedActions, h.forbiddenActions,
        h.expectedFinalState, h.tags, h.difficulty⟩⟩
  · rfl
  · simp

theorem related_tasks_iff {as bs : List TaskObject} :
    E (.arr (as.map taskToDict)) (.arr (bs.map taskToDict)) ↔
      List.Forall₂ (TaskObject.Related E) as bs := by
  simp only [hE.arr_iff, List.forall₂_map_left_iff, List.forall₂_map_right_iff, related_task_iff hE]

end Related

/-! ## The decoder inverts the encoder -/

/-- The object with the keys of its values in order. -/
def TaskObject.sortKeys (task : TaskObject) : TaskObject where
  taskId := task.taskId.sortKeys
  input := task.input.sortKeys
  initialState := task.initialState.sortKeys
  expectedActions := task.expectedActions.map fun action =>
    ⟨action.service.sortKeys, action.operation.sortKeys, action.arguments.sortKeys⟩
  forbiddenActions := task.forbiddenActions.map fun action =>
    ⟨action.service.sortKeys, action.operation.sortKeys, action.reason.sortKeys,
      action.arguments.sortKeys⟩
  expectedFinalState := task.expectedFinalState.sortKeys
  tags := task.tags.map Json.sortKeys
  difficulty := task.difficulty

theorem subscript_sortKeys {fields : Dict String Json} {key : String} {j : Json}
    (h : Dict.get? fields key = some j) :
    (Json.obj fields).sortKeys.subscript key = .ok j.sortKeys := by
  rw [Json.sortKeys, Json.subscript, Dict.get?_sorted, Json.sortKeysFields_eq_map, Dict.get?_map, h]
  rfl

theorem dictGet_sortKeys {fields : Dict String Json} {key : String} {j : Json}
    (h : Dict.get? fields key = some j) (default : Json) :
    (Json.obj fields).sortKeys.dictGet (.str key) default = .ok j.sortKeys := by
  change Except.ok ((Dict.get? (Dict.sorted (Json.sortKeysFields fields)) key).getD default) = _
  rw [Dict.get?_sorted, Json.sortKeysFields_eq_map, Dict.get?_map, h]
  rfl

section

theorem expectedActionFromDict_toDict (action : ExpectedObject) :
    expectedActionFromDict (expectedActionToDict action).sortKeys =
      .ok ⟨action.service.sortKeys, action.operation.sortKeys, action.arguments.sortKeys⟩ := by
  have hservice : (expectedActionToDict action).sortKeys.subscript "service" = _ :=
    subscript_sortKeys rfl
  have hoperation : (expectedActionToDict action).sortKeys.subscript "operation" = _ :=
    subscript_sortKeys rfl
  have harguments : (expectedActionToDict action).sortKeys.dictGet (.str "arguments") (.obj []) = _ :=
    dictGet_sortKeys rfl _
  rw [expectedActionFromDict, hservice, hoperation, harguments]
  rfl

theorem forbiddenActionFromDict_toDict (action : ForbiddenObject) :
    forbiddenActionFromDict (forbiddenActionToDict action).sortKeys =
      .ok ⟨action.service.sortKeys, action.operation.sortKeys, action.reason.sortKeys,
        action.arguments.sortKeys⟩ := by
  have hservice : (forbiddenActionToDict action).sortKeys.subscript "service" = _ :=
    subscript_sortKeys rfl
  have hoperation : (forbiddenActionToDict action).sortKeys.subscript "operation" = _ :=
    subscript_sortKeys rfl
  have hreason : (forbiddenActionToDict action).sortKeys.subscript "reason" = _ :=
    subscript_sortKeys rfl
  have harguments : (forbiddenActionToDict action).sortKeys.dictGet (.str "arguments") (.obj []) = _ :=
    dictGet_sortKeys rfl _
  rw [forbiddenActionFromDict, hservice, hoperation, hreason, harguments]
  rfl

/-- The items of a list of dictionaries with sorted keys. -/
theorem iter_sortKeys (items : List Json) :
    (Json.arr items).sortKeys.iter = .ok (items.map Json.sortKeys) := by
  rw [Json.sortKeys, Json.sortKeysItems_eq_map]
  rfl

/-- **The decoder inverts the encoder**, up to the order of keys. -/
theorem taskFromDict_taskToDict [Interpreter] (task : TaskObject) :
    taskFromDict (taskToDict task).sortKeys = .ok task.sortKeys := by
  have htaskId : (taskToDict task).sortKeys.subscript "task_id" = _ := subscript_sortKeys rfl
  have hinput : (taskToDict task).sortKeys.subscript "input" = _ := subscript_sortKeys rfl
  have hinitial : (taskToDict task).sortKeys.subscript "initial_state" = _ := subscript_sortKeys rfl
  have hexpected : (taskToDict task).sortKeys.subscript "expected_actions" = _ :=
    subscript_sortKeys rfl
  have hforbidden : (taskToDict task).sortKeys.subscript "forbidden_actions" = _ :=
    subscript_sortKeys rfl
  have hfinal : (taskToDict task).sortKeys.subscript "expected_final_state" = _ :=
    subscript_sortKeys rfl
  have htags : (taskToDict task).sortKeys.subscript "tags" = _ := subscript_sortKeys rfl
  have hdifficulty : (taskToDict task).sortKeys.subscript "difficulty" = _ := subscript_sortKeys rfl
  have hvalue : Difficulty.ofValue (Json.str task.difficulty.value).sortKeys =
      .ok task.difficulty := by
    cases task.difficulty <;> rfl
  unfold taskFromDict
  rw [htaskId, hinput, hinitial, hexpected, hforbidden, hfinal, htags, hdifficulty]
  simp only [bind, Except.bind, iter_sortKeys, List.map_map, hvalue]
  have hactions : (task.expectedActions.map (Json.sortKeys ∘ expectedActionToDict)).mapM
      expectedActionFromDict = _ := mapM_map_ok expectedActionFromDict_toDict _
  have hguards : (task.forbiddenActions.map (Json.sortKeys ∘ forbiddenActionToDict)).mapM
      forbiddenActionFromDict = _ := mapM_map_ok forbiddenActionFromDict_toDict _
  rw [hactions, hguards]
  rfl

/-- What is decoded is equal to what was encoded. -/
theorem related_sortKeys {E : Json → Json → Prop} (hE : Json.Extensional E) (hrefl : ∀ j, E j j)
    (task : TaskObject) : task.sortKeys.Related E task where
  taskId := hE.sortKeys hrefl _
  input := hE.sortKeys hrefl _
  initialState := hE.sortKeys hrefl _
  expectedActions := by
    rw [TaskObject.sortKeys, List.forall₂_map_left_iff, List.forall₂_same]
    exact fun action _ => ⟨hE.sortKeys hrefl _, hE.sortKeys hrefl _, hE.sortKeys hrefl _⟩
  forbiddenActions := by
    rw [TaskObject.sortKeys, List.forall₂_map_left_iff, List.forall₂_same]
    exact fun action _ =>
      ⟨hE.sortKeys hrefl _, hE.sortKeys hrefl _, hE.sortKeys hrefl _, hE.sortKeys hrefl _⟩
  expectedFinalState := hE.sortKeys hrefl _
  tags := by
    rw [TaskObject.sortKeys, List.forall₂_map_left_iff, List.forall₂_same]
    exact fun tag _ => hE.sortKeys hrefl tag
  difficulty := rfl

theorem related_tasks_sortKeys {E : Json → Json → Prop} (hE : Json.Extensional E)
    (hrefl : ∀ j, E j j) (tasks : List TaskObject) :
    List.Forall₂ (TaskObject.Related E) (tasks.map TaskObject.sortKeys) tasks := by
  rw [List.forall₂_map_left_iff, List.forall₂_same]
  exact fun task _ => related_sortKeys hE hrefl task

/-! ## The integrity check -/

variable {p : PyFloat → Bool}

/-- Every float of the tasks passes a test. -/
def FloatsOf (p : PyFloat → Bool) (tasks : List TaskObject) : Prop :=
  ∀ task ∈ tasks, (taskToDict task).floatsAll p = true

theorem FloatsOf.json {tasks : List TaskObject} (h : FloatsOf p tasks) :
    (Json.arr (tasks.map taskToDict)).floatsAll p = true :=
  Json.floatsAllItems_iff.mpr fun j hj => by
    obtain ⟨task, htask, rfl⟩ := List.mem_map.mp hj
    exact h task htask

variable [Interpreter] [Sha256]

/-- Tasks that are the same up to the order of keys have the same hash. -/
theorem computeContentHash_congr {as bs : List TaskObject}
    (h : List.Forall₂ (TaskObject.Related Json.Same) as bs) :
    computeContentHash as = computeContentHash bs :=
  congrArg (fun j : Json => Sha256.hexdigest (String.ofList (j.write inLine 0)))
    ((related_tasks_iff Json.same_extensional).mpr h)

/-- **With SHA-256 taken to be injective, the hash determines the tasks** up to the order of keys. -/
theorem computeContentHash_eq_iff (hsha : Function.Injective Sha256.hexdigest)
    (hrepr : FloatsReadBack p) {as bs : List TaskObject} (has : FloatsOf p as)
    (hbs : FloatsOf p bs) :
    computeContentHash as = computeContentHash bs ↔
      List.Forall₂ (TaskObject.Related Json.Same) as bs := by
  rw [computeContentHash, computeContentHash, hsha.eq_iff,
    Json.dumpsWith_eq_iff inLine hrepr has.json hbs.json, related_tasks_iff Json.same_extensional]

/-- Loading compares the hash of the tasks with the one in the file. -/
theorem loadSuiteSnapshot_eq {path text : String} {payload hash : Json} {tasks : List TaskObject}
    (hpayload : loads text = some payload) (htasks : decodeTasks payload = .ok tasks)
    (hhash : payload.subscript "content_hash" = .ok hash) :
    loadSuiteSnapshot path text =
      if Json.pyEq (.str (computeContentHash tasks)) hash then
        .ok ⟨tasks, computeContentHash tasks⟩
      else .error (.other "SuiteIntegrityError"
        (integrityMessage path hash.format (computeContentHash tasks))) := by
  rw [loadSuiteSnapshot, hpayload]
  simp only [bind, Except.bind, htasks, hhash]
  rfl

/-- **What was saved is loaded**, with its keys in order, if its hash is that of its tasks. -/
theorem loadSuiteSnapshot_save (hrepr : FloatsReadBack p) (path : String) {snapshot : SuiteSnapshot}
    (hfloats : FloatsOf p snapshot.tasks) :
    loadSuiteSnapshot path (saveSuiteSnapshot snapshot) =
      if computeContentHash snapshot.tasks = snapshot.contentHash then
        .ok ⟨snapshot.tasks.map TaskObject.sortKeys, computeContentHash snapshot.tasks⟩
      else .error (.other "SuiteIntegrityError"
        (integrityMessage path snapshot.contentHash (computeContentHash snapshot.tasks))) := by
  have hpayload : loads (saveSuiteSnapshot snapshot) = some snapshot.payload.sortKeys := by
    refine Json.loads_dumpsWith indented hrepr ?_
    simp only [SuiteSnapshot.payload, Json.floatsAll, Json.floatsAllFields, Bool.true_and,
      Bool.and_true]
    exact hfloats.json
  have hlist : snapshot.payload.sortKeys.subscript "tasks" = _ := subscript_sortKeys rfl
  have hhash : snapshot.payload.sortKeys.subscript "content_hash" = _ := subscript_sortKeys rfl
  have htasks : decodeTasks snapshot.payload.sortKeys =
      .ok (snapshot.tasks.map TaskObject.sortKeys) := by
    rw [decodeTasks, hlist]
    simp only [bind, Except.bind, iter_sortKeys, List.map_map]
    exact mapM_map_ok taskFromDict_taskToDict snapshot.tasks
  have hsame : computeContentHash (snapshot.tasks.map TaskObject.sortKeys) =
      computeContentHash snapshot.tasks :=
    computeContentHash_congr
      (related_tasks_sortKeys Json.same_extensional Json.Same.refl snapshot.tasks)
  rw [loadSuiteSnapshot_eq hpayload htasks hhash, hsame]
  simp [Json.sortKeys, Json.format]

/-- **Suite snapshots freeze and reload exactly.**  A snapshot of tasks is reloaded as an equal one;
any snapshot is reloaded exactly if its hash is that of its tasks; and a file with other tasks under
the hash is refused, SHA-256 taken to be injective. -/
theorem suiteSnapshot_integrity (hrepr : FloatsReadBack p) (path : String) :
    (∀ tasks : List BenchmarkTask, FloatsOf p (tasks.map BenchmarkTask.object) →
      ∃ reloaded, loadSuiteSnapshot path
          (saveSuiteSnapshot (snapshotSuite (tasks.map BenchmarkTask.object))) = .ok reloaded ∧
        reloaded.Equal (snapshotSuite (tasks.map BenchmarkTask.object))) ∧
    (∀ snapshot : SuiteSnapshot, FloatsOf p snapshot.tasks →
      ((∃ reloaded, loadSuiteSnapshot path (saveSuiteSnapshot snapshot) = .ok reloaded) ↔
        snapshot.contentHash = computeContentHash snapshot.tasks)) ∧
    (Function.Injective Sha256.hexdigest → ∀ (tasks decoded : List TaskObject) (text : String)
      (payload : Json), FloatsOf p tasks → FloatsOf p decoded → loads text = some payload →
      decodeTasks payload = .ok decoded →
      payload.subscript "content_hash" = .ok (.str (computeContentHash tasks)) →
      ¬ List.Forall₂ (TaskObject.Related Json.Same) decoded tasks →
      ∃ message, loadSuiteSnapshot path text = .error (.other "SuiteIntegrityError" message)) := by
  refine ⟨fun tasks hfloats => ?_, fun snapshot hfloats => ?_, ?_⟩
  · refine ⟨_, (loadSuiteSnapshot_save hrepr path hfloats).trans (if_pos rfl), ?_, rfl⟩
    exact related_tasks_sortKeys Json.alike_extensional Json.Alike.refl _
  · rw [loadSuiteSnapshot_save hrepr path hfloats]
    split_ifs with h
    · exact iff_of_true ⟨_, rfl⟩ h.symm
    · exact iff_of_false (by simp) fun heq => h heq.symm
  · intro hsha tasks decoded text payload hfloats hdecoded hpayload htasks hhash hother
    refine ⟨_, (loadSuiteSnapshot_eq hpayload htasks hhash).trans (if_neg ?_)⟩
    rw [Json.pyEq_iff, Json.canon, Json.canon, Json.str.injEq,
      computeContentHash_eq_iff hsha hrepr hdecoded hfloats]
    exact hother

omit [Interpreter] [Sha256] in
/-- A seed task is reloaded, an empty suite under a hash of its own is not, and neither is one under
the hash of the seed task. -/
theorem suiteSnapshot_integrity_seed :
    let _ := cpython
    let _ := sha256
    let suite := [customerRefundWithinPolicy]
    let frozen := snapshotSuite (suite.map BenchmarkTask.object)
    (∃ reloaded, loadSuiteSnapshot "suite.json" (saveSuiteSnapshot frozen) = .ok reloaded ∧
        reloaded.Equal frozen) ∧
      ((∃ reloaded, loadSuiteSnapshot "suite.json" (saveSuiteSnapshot ⟨[], "0"⟩) = .ok reloaded) ↔
        "0" = computeContentHash []) ∧
      ∃ message, loadSuiteSnapshot "suite.json"
          (saveSuiteSnapshot { frozen with tasks := [] }) =
        .error (.other "SuiteIntegrityError" message) := by
  intro _ _ suite frozen
  have hfloats : FloatsOf (fun _ => false) frozen.tasks := by
    unfold FloatsOf
    decide +kernel
  have hempty : FloatsOf (fun _ => false) [] := fun _ h => absurd h (by simp)
  obtain ⟨hreload, hload, hrefuse⟩ :=
    suiteSnapshot_integrity (p := fun _ => false) floatsReadBack_false "suite.json"
  refine ⟨hreload suite hfloats, hload ⟨[], "0"⟩ hempty, ?_⟩
  have hlist : (SuiteSnapshot.payload { frozen with tasks := [] }).sortKeys.subscript "tasks" = _ :=
    subscript_sortKeys rfl
  have hhash : (SuiteSnapshot.payload { frozen with tasks := [] }).sortKeys.subscript
      "content_hash" = _ := subscript_sortKeys rfl
  refine hrefuse sha256_injective frozen.tasks [] _ _ hfloats hempty
    (Json.loads_dumpsWith indented floatsReadBack_false rfl) ?_ hhash
    (fun h => absurd h.length_eq (by decide))
  rw [decodeTasks, hlist]
  rfl

end

end AgentProof
