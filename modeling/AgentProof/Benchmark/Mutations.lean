import AgentProof.Benchmark.Schema
import AgentProof.Machinery.Raising
import AgentProof.Python.Random
import AgentProof.Python.Text
import AgentProof.ToolEnvironment.Interpreter

/-!
# Benchmark/Mutations — adversarial mutations of a task

Seven registered mutations, each a function of the task and a seed.  Five reword the input or add a
field to the seeded state; `create_missing_customer_information_variant` and
`create_boundary_refund_amount_variant` edit the contract.  `compose_mutations` applies several in a
row and stops at the first that does not apply.

The actions of a task are distinct objects, so `action is refund_action` holds of the first refund
only.  Numbers are read from a text and written to one at any length: the interpreter's limit on
their digits is taken to be off.
-/

open Machinery Machinery.Pattern Machinery.Raising

namespace AgentProof

/-! ## The tables -/

/-- `TYPO_REPLACEMENTS` -/
def typoReplacements : List (String × String) :=
  [("Customer", "Custmer"), ("damaged", "damagd"), ("refund", "refnd"), ("ticket", "tcket")]

/-- `DISTRACTOR_SENTENCES` -/
def distractorSentences : List String :=
  ["The customer also mentioned they are considering buying a gift card.",
    "The customer's package was delivered by a regional carrier this time.",
    "The customer asked whether the company offers a loyalty program.",
    "The customer noted that their cat knocked over the delivery box."]

/-- `PARAPHRASE_REPLACEMENTS` -/
def paraphraseReplacements : List (String × String) :=
  [("asks for a refund", "would like a refund"),
    ("asks for a full refund", "would like a full refund"),
    ("arrived damaged", "was damaged on arrival"),
    ("wants to cancel", "would like to cancel"), ("stopped working", "no longer works")]

/-- `NOISE_FIELDS` -/
def noiseFields : List (String × String) :=
  [("loyalty_tier", "silver"), ("packaging", "eco"), ("warehouse_region", "west-2"),
    ("internal_batch_id", "BATCH-4471")]

/-! ## What the mutations share -/

/-- The variant of a task that a mutation does not apply to. -/
def notApplied (task : BenchmarkTask) (mutationType : String) (randomSeed : ℤ) :
    AdversarialVariant :=
  ⟨task, task.taskId, mutationType, randomSeed, false⟩

/-- The variant that a mutation makes of a task; `label` names it in the id. -/
def applied (task mutated : BenchmarkTask) (label mutationType : String) (randomSeed : ℤ) :
    AdversarialVariant where
  task :=
    { mutated with
      taskId := s!"{task.taskId}__{label}_{randomSeed}"
      tags := task.tags ++ ["adversarial", mutationType] }
  parentTaskId := task.taskId
  mutationType := mutationType
  randomSeed := randomSeed
  validatorResult := true

/-- `{**state, collection: {**state[collection], id: {**state[collection][id], field: value}}}` -/
def withField (state : Dict String Json) (collection : String) (id : Json) (field : String)
    (value : Json) : Except PyError (Dict String Json) := do
  let entities := (Dict.get? state collection).getD (.obj [])
  let entries ← entities.unpack
  let entity ← (← entities.item id).unpack
  let entities ← (Json.obj entries).setItem id (.obj (Dict.set entity field value))
  return Dict.set state collection entities

/-- **What `withField` needs and what it writes.** -/
theorem withField_eq_ok {state state' : Dict String Json} {collection field : String}
    {id value : Json} :
    withField state collection id field value = .ok state' ↔
      ∃ k entries entity, id = .str k ∧ Dict.get? state collection = some (.obj entries) ∧
        Dict.get? entries k = some (.obj entity) ∧
        state' = Dict.set state collection
          (.obj (Dict.set entries k (.obj (Dict.set entity field value)))) := by
  simp only [withField, except_bind_eq_ok, Json.unpack_eq_ok]
  constructor
  · rintro ⟨entries, hentries, v, hitem, entity, rfl, entities, hset, hstate⟩
    rw [hentries] at hitem
    obtain ⟨k, rfl, hk⟩ := Json.item_obj_eq_ok.mp hitem
    obtain rfl := Except.ok.inj hset
    refine ⟨k, entries, entity, rfl, ?_, hk, (Except.ok.inj hstate).symm⟩
    cases hread : Dict.get? state collection with
    | none =>
      rw [hread] at hentries
      obtain rfl := Json.obj.inj hentries
      cases hk
    | some j =>
      rw [hread] at hentries
      exact congrArg some hentries
  · rintro ⟨k, entries, entity, rfl, hread, hk, rfl⟩
    rw [hread]
    exact ⟨entries, rfl, _, Json.item_obj_eq_ok.mpr ⟨k, rfl, hk⟩, entity, rfl, _, rfl, rfl⟩

/-- A field that is set repeats no key. -/
theorem distinctKeys_withField {state state' : Dict String Json} {collection field : String}
    {id value : Json} (hstate : (Json.obj state).distinctKeys = true)
    (hvalue : value.distinctKeys = true)
    (h : withField state collection id field value = .ok state') :
    (Json.obj state').distinctKeys = true := by
  obtain ⟨k, entries, entity, rfl, hentries, hentity, rfl⟩ := withField_eq_ok.mp h
  have hcollection := Json.distinctKeys_of_get? hstate hentries
  have hentity := Json.distinctKeys_of_get? hcollection hentity
  exact Json.distinctKeys_set hstate _ (Json.distinctKeys_set hcollection _
    (Json.distinctKeys_set hentity _ hvalue))

/-- `j + n` -/
def Json.add (j : Json) (n : ℤ) : Except PyError Json :=
  match j with
  | .bool b => .ok (.int ((if b then 1 else 0) + n))
  | .int m => .ok (.int (m + n))
  | .float x => .ok (.float (x.add (.fin n)))
  | j => .error (.typeError (.notAddable j))

section Mutations

variable [RandomGenerator]

/-! ## Rewording the input -/

/-- One of the phrases of a table that occur in the input, replaced by its counterpart. -/
def replacePhrase (replacements : List (String × String)) (label mutationType : String)
    (task : BenchmarkTask) (randomSeed : ℤ) : AdversarialVariant :=
  let candidates := replacements.filter fun entry => occursIn entry.1 task.input
  if h : candidates = [] then notApplied task mutationType randomSeed
  else
    let (phrase, replacement) := choice randomSeed [] candidates h
    applied task { task with input := replaceOnce task.input phrase replacement } label
      mutationType randomSeed

/-- `inject_typos` -/
def injectTypos : BenchmarkTask → ℤ → AdversarialVariant :=
  replacePhrase typoReplacements "typo" "typo_injection"

/-- `inject_paraphrase` -/
def injectParaphrase : BenchmarkTask → ℤ → AdversarialVariant :=
  replacePhrase paraphraseReplacements "paraphrase" "paraphrase"

/-- `inject_distractor_information` -/
def injectDistractorInformation (task : BenchmarkTask) (randomSeed : ℤ) : AdversarialVariant :=
  let sentence := choice randomSeed [] distractorSentences (by decide)
  applied task { task with input := s!"{task.input} {sentence}" } "distractor"
    "distractor_information" randomSeed

/-- `_DOLLAR_AMOUNT_PATTERN` -/
def dollarAmountPattern [UnicodeData] : Pattern Char :=
  .seq (.word [(· = '$')]) <| .seq (.word [isDecimal]) <| .seq (.many isDecimal) <|
    .word [(· = '.'), isDecimal, isDecimal]

/-- `f"{n:02d}"` -/
def twoDigits (n : ℕ) : String := if n < 10 then s!"0{n}" else toString n

/-- `inject_conflicting_detail`.  The first group is what precedes the point. -/
def injectConflictingDetail [UnicodeData] (task : BenchmarkTask) (randomSeed : ℤ) :
    AdversarialVariant :=
  match search (· = '\n') dollarAmountPattern true task.input.toList with
  | none => notApplied task "conflicting_detail" randomSeed
  | some found =>
    let dollars := found.text.tail.takeWhile (· ≠ '.')
    let cents := (found.text.tail.dropWhile (· ≠ '.')).tail
    let actualCents := digitsValue dollars * 100 + digitsValue cents
    let conflictingCents := actualCents + (randint randomSeed [] 1 500).toNat
    let conflictingAmount := s!"${conflictingCents / 100}.{twoDigits (conflictingCents % 100)}"
    applied task
      { task with input := replaceOnce task.input (String.ofList found.text) conflictingAmount }
      "conflict" "conflicting_detail" randomSeed

/-! ## Noise in the seeded state -/

/-- What `inject_tool_result_noise` draws: an entity, a field for it and its value. -/
structure Noise where
  collection : String
  entityId : Json
  field : String
  value : Json
  deriving DecidableEq

/-- The entities of the seeded state, each with its collection. -/
def noiseCandidates (initialState : Dict String Json) : Except PyError (List (String × Json)) := do
  let collections ← ["customers", "orders", "tickets"].mapM fun collection => do
    let ids ← ((Dict.get? initialState collection).getD (.obj [])).iter
    return ids.map fun id => (collection, id)
  return collections.flatten

/-- The draws of `inject_tool_result_noise`: none from a state without entities. -/
def drawNoise (initialState : Dict String Json) (randomSeed : ℤ) :
    Except PyError (Option Noise) := do
  let candidates ← noiseCandidates initialState
  if h : candidates = [] then return none
  else
    let (collection, entityId) := choice randomSeed [] candidates h
    let (field, value) := choice randomSeed [candidates.length] noiseFields (by decide)
    return some ⟨collection, entityId, field, .str value⟩

/-- What `inject_tool_result_noise` draws. -/
theorem drawNoise_eq_ok {initialState : Dict String Json} {randomSeed : ℤ} {noise : Noise}
    (h : drawNoise initialState randomSeed = .ok (some noise)) :
    noise.collection ∈ ["customers", "orders", "tickets"] ∧
      ∃ entry ∈ noiseFields, noise.field = entry.1 ∧ noise.value = .str entry.2 := by
  rw [drawNoise] at h
  obtain ⟨candidates, hcandidates, h⟩ := except_bind_eq_ok.mp h
  split_ifs at h with hempty
  · cases h
  · obtain rfl := Option.some.inj (Except.ok.inj h)
    refine ⟨?_, _, choice_mem _ _ noiseFields (by decide), rfl, rfl⟩
    have hmem := choice_mem randomSeed [] candidates hempty
    obtain ⟨collections, hcollections, hflat⟩ := except_bind_eq_ok.mp hcandidates
    obtain rfl := Except.ok.inj hflat
    obtain ⟨ids, hids, hmem⟩ := List.mem_flatten.mp hmem
    obtain ⟨collection, hcollection, hread⟩ := exists_of_mem_mapM hcollections hids
    obtain ⟨items, -, hread⟩ := except_bind_eq_ok.mp hread
    obtain rfl := Except.ok.inj hread
    obtain ⟨id, -, hid⟩ := List.mem_map.mp hmem
    change (choice randomSeed [] collections.flatten hempty).1 ∈ _
    rw [← hid]
    exact hcollection

/-- `inject_tool_result_noise` -/
def injectToolResultNoise (task : BenchmarkTask) (randomSeed : ℤ) :
    Except PyError AdversarialVariant := do
  match ← drawNoise task.initialState randomSeed with
  | none => return notApplied task "tool_result_noise" randomSeed
  | some noise =>
    let mutatedState ←
      withField task.initialState noise.collection noise.entityId noise.field noise.value
    return applied task { task with initialState := mutatedState } "noise" "tool_result_noise"
      randomSeed

/-- What `inject_tool_result_noise` returns: the task, or the task with another seeded state. -/
theorem injectToolResultNoise_eq_ok {task : BenchmarkTask} {randomSeed : ℤ}
    {variant : AdversarialVariant} (h : injectToolResultNoise task randomSeed = .ok variant) :
    (drawNoise task.initialState randomSeed = .ok none ∧
        variant = notApplied task "tool_result_noise" randomSeed) ∨
      ∃ noise mutatedState, drawNoise task.initialState randomSeed = .ok (some noise) ∧
        withField task.initialState noise.collection noise.entityId noise.field noise.value =
          .ok mutatedState ∧
        variant = applied task { task with initialState := mutatedState } "noise"
          "tool_result_noise" randomSeed := by
  rw [injectToolResultNoise] at h
  obtain ⟨_ | noise, hdraw, h⟩ := except_bind_eq_ok.mp h
  · exact .inl ⟨hdraw, (Except.ok.inj h).symm⟩
  · obtain ⟨mutatedState, hstate, h⟩ := except_bind_eq_ok.mp h
    exact .inr ⟨noise, mutatedState, hdraw, hstate, (Except.ok.inj h).symm⟩

/-! ## Editing the contract -/

/-- `_CUSTOMER_MENTION_PATTERN` -/
def customerMentionPattern [UnicodeData] : Pattern Char :=
  .seq (.word ("Customer CUST-".toList.map fun c d => decide (d = c))) <|
    .seq (.word [isDecimal]) (.many isDecimal)

/-- The decoy that `create_missing_customer_information_variant` draws. -/
def decoyCustomerId (randomSeed : ℤ) : String := s!"CUST-{900 + randint randomSeed [] 0 99}"

/-- The guard against guessing a decoy. -/
def decoyGuard (decoy : String) : ForbiddenAction where
  service := "customer"
  operation := "get_customer"
  reason := "Customer identity was not provided in the request; " ++
    "the agent must infer it from the order."
  arguments := [("customer_id", .str decoy)]

/-- `create_missing_customer_information_variant` -/
def createMissingCustomerInformationVariant [UnicodeData] (task : BenchmarkTask)
    (randomSeed : ℤ) : AdversarialVariant :=
  match search (· = '\n') customerMentionPattern true task.input.toList with
  | none => notApplied task "missing_customer_information" randomSeed
  | some found =>
    applied task
      { task with
        input := replaceOnce task.input (String.ofList found.text) "A shopper"
        forbiddenActions :=
          task.forbiddenActions ++ [decoyGuard (decoyCustomerId randomSeed)] }
      "missing_customer" "missing_customer_information" randomSeed

/-- An expected action is a refund. -/
def ExpectedAction.isRefund (action : ExpectedAction) : Bool :=
  action.service = "refund" && action.operation = "create_refund"

/-- `arguments.get(key)` -/
def getArgument (arguments : Dict String Json) (key : String) : Json :=
  (Dict.get? arguments key).getD .null

/-- The refund whose amount `create_boundary_refund_amount_variant` shifts, and by how much. -/
structure BoundaryShift where
  refundAction : ExpectedAction
  orderId : Json
  newTotal : Json
  /-- `original_total + 1` -/
  guarded : Json
  /-- `new_total + 1` -/
  newGuarded : Json

/-- The part of `create_boundary_refund_amount_variant` that finds the refund and draws the new
total: none if the first refund is not the refund of an order's total. -/
def drawBoundary (task : BenchmarkTask) (randomSeed : ℤ) :
    Except PyError (Option BoundaryShift) :=
  match task.expectedActions.find? ExpectedAction.isRefund with
  | none => .ok none
  | some refundAction => do
    let orderId := getArgument refundAction.arguments "order_id"
    let orders := (Dict.get? task.initialState "orders").getD (.obj [])
    if !(← orders.contains orderId) then return none
    else
      let originalTotal ← (← orders.item orderId).subscript "total_cents"
      if !((getArgument refundAction.arguments "amount_cents").pyEq originalTotal) then return none
      else
        let newTotal ← originalTotal.add (randint randomSeed [] 1 200)
        -- these sums do not raise: a number was already added to the total
        return some ⟨refundAction, orderId, newTotal, ← originalTotal.add 1, ← newTotal.add 1⟩

/-- The expected actions with another amount for the first refund. -/
def shiftRefund (newTotal : Json) : List ExpectedAction → List ExpectedAction
  | [] => []
  | action :: actions =>
    if action.isRefund then
      { action with arguments := Dict.set action.arguments "amount_cents" newTotal } :: actions
    else action :: shiftRefund newTotal actions

/-- A forbidden action that guards the amount above the total, by any refund operation. -/
def ForbiddenAction.guardsTotal (action : ForbiddenAction) (orderId guarded : Json) : Bool :=
  action.service = "refund" && (getArgument action.arguments "order_id").pyEq orderId &&
    (getArgument action.arguments "amount_cents").pyEq guarded

/-- A forbidden action with the guard above the total moved. -/
def ForbiddenAction.shiftGuard (orderId guarded newGuarded : Json) (action : ForbiddenAction) :
    ForbiddenAction :=
  if action.guardsTotal orderId guarded then
    { action with arguments := Dict.set action.arguments "amount_cents" newGuarded }
  else action

/-- The expected final state with another amount for the refund of an order, if it has one. -/
def shiftFinalState (expectedFinalState : Dict String Json) (orderId newTotal : Json) :
    Except PyError (Dict String Json) := do
  let refunds := (Dict.get? expectedFinalState "refunds").getD (.obj [])
  if ← refunds.contains orderId then
    withField expectedFinalState "refunds" orderId "amount_cents" newTotal
  else return expectedFinalState

/-- `create_boundary_refund_amount_variant` -/
def createBoundaryRefundAmountVariant (task : BenchmarkTask) (randomSeed : ℤ) :
    Except PyError AdversarialVariant := do
  match ← drawBoundary task randomSeed with
  | none => return notApplied task "boundary_refund_amount" randomSeed
  | some shift =>
    let mutatedState ←
      withField task.initialState "orders" shift.orderId "total_cents" shift.newTotal
    let mutatedFinalState ←
      shiftFinalState task.expectedFinalState shift.orderId shift.newTotal
    return applied task
      { task with
        initialState := mutatedState
        expectedActions := shiftRefund shift.newTotal task.expectedActions
        forbiddenActions :=
          task.forbiddenActions.map (.shiftGuard shift.orderId shift.guarded shift.newGuarded)
        expectedFinalState := mutatedFinalState }
      "boundary" "boundary_refund_amount" randomSeed

/-! ## The registry -/

variable [UnicodeData]

/-- `MUTATION_REGISTRY` -/
def mutationRegistry :
    List (String × (BenchmarkTask → ℤ → Except PyError AdversarialVariant)) :=
  [("typo_injection", fun task seed => .ok (injectTypos task seed)),
    ("distractor_information", fun task seed => .ok (injectDistractorInformation task seed)),
    ("conflicting_detail", fun task seed => .ok (injectConflictingDetail task seed)),
    ("paraphrase", fun task seed => .ok (injectParaphrase task seed)),
    ("tool_result_noise", injectToolResultNoise),
    ("missing_customer_information", fun task seed =>
      .ok (createMissingCustomerInformationVariant task seed)),
    ("boundary_refund_amount", createBoundaryRefundAmountVariant)]

variable [Interpreter]

/-- `apply_mutation` -/
def applyMutation (mutationType : String) (task : BenchmarkTask) (randomSeed : ℤ) :
    Except PyError AdversarialVariant :=
  match Dict.get? mutationRegistry mutationType with
  | some mutation => mutation task randomSeed
  | none => .error (.valueError s!"Unknown mutation type: {Interpreter.reprStr mutationType}")

/-- A mutation that is applied is registered. -/
theorem exists_of_applyMutation {mutationType : String} {task : BenchmarkTask} {randomSeed : ℤ}
    {variant : AdversarialVariant} (h : applyMutation mutationType task randomSeed = .ok variant) :
    ∃ mutation, (mutationType, mutation) ∈ mutationRegistry ∧
      mutation task randomSeed = .ok variant := by
  rw [applyMutation] at h
  split at h
  · rename_i mutation hmutation
    exact ⟨mutation, Dict.mem_of_get?_eq_some hmutation, h⟩
  · cases h

/-- The loop of `compose_mutations`: the task it ends with, the types it applied, and whether all of
them applied.  `asked` is what the generator was asked for before. -/
def composeFrom (randomSeed : ℤ) : List String → List ℕ → BenchmarkTask → List String →
    Except PyError (BenchmarkTask × List String × Bool)
  | [], _, currentTask, appliedTypes => .ok (currentTask, appliedTypes, true)
  | mutationType :: mutationTypes, asked, currentTask, appliedTypes => do
    let stepSeed := randint randomSeed asked 0 (2 ^ 31 - 1)
    let variant ← applyMutation mutationType currentTask stepSeed
    if !variant.validatorResult then return (currentTask, appliedTypes ++ [mutationType], false)
    else
      composeFrom randomSeed mutationTypes (asked ++ [2 ^ 31]) variant.task
        (appliedTypes ++ [mutationType])

/-- `compose_mutations` -/
def composeMutations (task : BenchmarkTask) (mutationTypes : List String) (randomSeed : ℤ) :
    Except PyError AdversarialVariant := do
  let (currentTask, appliedTypes, validatorResult) ← composeFrom randomSeed mutationTypes [] task []
  return ⟨currentTask, task.taskId, "+".intercalate appliedTypes, randomSeed, validatorResult⟩

end Mutations

end AgentProof
