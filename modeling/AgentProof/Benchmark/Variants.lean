import AgentProof.Benchmark.Validators
import AgentProof.Benchmark.Tasks
import AgentProof.Judges.Containment

/-!
# Benchmark/Variants — what a validated variant keeps of its parent's contract

`validate_variant` accepts a variant made by mutations that preserve the contract if its expected
actions are its parent's, and its forbidden actions too up to their reasons.  It does not look at the
expected final state.

**The two are scored alike exactly if their expected final states are `==`, or the contract
contradicts itself** (`validateVariant_sameContract_iff`).
-/

open Machinery Machinery.Raising

namespace AgentProof

/-! ## The validator -/

/-- `_ID_ARGUMENT_TO_STATE_COLLECTION` -/
def idArgumentToStateCollection : List (String × String) :=
  [("customer_id", "customers"), ("order_id", "orders"), ("ticket_id", "tickets")]

/-- `CONTRACT_PRESERVING_MUTATIONS` -/
def contractPreservingMutations : List String :=
  ["typo_injection", "distractor_information", "conflicting_detail", "paraphrase",
    "tool_result_noise"]

/-- `_referenced_ids_exist` -/
def referencedIdsExist (arguments initialState : Dict String Json) : Except PyError Bool :=
  idArgumentToStateCollection.allM fun (key, collection) =>
    match Dict.get? arguments key with
    | none => return true
    | some value => ((Dict.get? initialState collection).getD (.obj [])).contains value

/-- The service, the operation and the sorted items of a forbidden action. -/
abbrev ForbiddenSignature : Type := String × String × Dict String Json

/-- The signature of an action.  A set holds hashable values only. -/
def ForbiddenAction.signature (action : ForbiddenAction) : Except PyError ForbiddenSignature :=
  let items := Dict.sorted action.arguments
  match items.find? fun item => !item.2.hashable with
  | some item => .error (.typeError (.unhashable "set element" item.2))
  | none => .ok (action.service, action.operation, items)

/-- `_forbidden_signatures` -/
def forbiddenSignatures (forbiddenActions : List ForbiddenAction) :
    Except PyError (List ForbiddenSignature) := forbiddenActions.mapM ForbiddenAction.signature

/-- `==` of two signatures -/
def ForbiddenSignature.equal (a b : ForbiddenSignature) : Bool :=
  a.1 = b.1 && a.2.1 = b.2.1 &&
    a.2.2.isEqv b.2.2 fun item item' => item.1 = item'.1 && item.2.pyEq item'.2

/-- `==` of two sets of signatures -/
def sameSignatures (as bs : List ForbiddenSignature) : Bool :=
  (as.all fun a => bs.any fun b => ForbiddenSignature.equal a b) &&
    bs.all fun b => as.any fun a => ForbiddenSignature.equal a b

/-- `==` of two expected actions -/
def ExpectedAction.equal (a b : ExpectedAction) : Bool :=
  a.service = b.service && a.operation = b.operation &&
    (Json.obj a.arguments).pyEq (.obj b.arguments)

/-- `mutation_type.split("+")` -/
def appliedTypes (mutationType : String) : List String :=
  (mutationType.toList.splitOn '+').map String.ofList

/-- Every mutation of a composed type preserves the contract. -/
def ContractPreserving (mutationType : String) : Prop :=
  ∀ applied ∈ appliedTypes mutationType, applied ∈ contractPreservingMutations

instance (mutationType : String) : Decidable (ContractPreserving mutationType) :=
  inferInstanceAs (Decidable (∀ applied ∈ appliedTypes mutationType, _))

/-- The service has the operation. -/
def allowed (service operation : String) : Bool :=
  match Dict.get? validServiceOperations service with
  | none => false
  | some operations => decide (operation ∈ operations)

/-- `validate_variant` -/
def validateVariant (variant : AdversarialVariant) (parentTasksById : Dict String BenchmarkTask)
    (existingTaskIds : List String) : Except PyError Bool :=
  if variant.mutationType = "" ∨ variant.parentTaskId = "" then .ok false
  else
    match Dict.get? parentTasksById variant.parentTaskId with
    | none => .ok false
    | some parent => do
      let task := variant.task
      if task.taskId ∈ existingTaskIds then return false
      else if !((task.expectedActions.all fun action => allowed action.service action.operation) &&
          task.forbiddenActions.all fun action => allowed action.service action.operation) then
        return false
      else if !(← task.expectedActions.allM fun expected =>
          referencedIdsExist expected.arguments task.initialState) then return false
      else if ContractPreserving variant.mutationType then
        if !(task.expectedActions.isEqv parent.expectedActions ExpectedAction.equal) then
          return false
        else
          let signatures ← forbiddenSignatures task.forbiddenActions
          return sameSignatures signatures (← forbiddenSignatures parent.forbiddenActions)
      else return true

/-! ## What it compares -/

theorem forall₂_of_isEqv {α : Type} {eqv : α → α → Bool} {r : α → α → Prop}
    (hr : ∀ {a b}, eqv a b = true → r a b) : ∀ {as bs : List α}, as.isEqv bs eqv = true →
      List.Forall₂ r as bs
  | [], [], _ => .nil
  | a :: as, b :: bs, h => by
    rw [List.isEqv, Bool.and_eq_true] at h
    exact .cons (hr h.1) (forall₂_of_isEqv hr h.2)

theorem alikeCall_of_equal {a b : ExpectedAction} (h : a.equal b = true) :
    AlikeCall a.call b.call := by
  rw [ExpectedAction.equal, Bool.and_eq_true, Bool.and_eq_true, decide_eq_true_eq,
    decide_eq_true_eq] at h
  exact ⟨h.1.1, h.1.2, Json.pyEq_iff.mp h.2⟩

theorem signature_eq_ok {action : ForbiddenAction} {signature : ForbiddenSignature}
    (h : action.signature = .ok signature) :
    signature = (action.service, action.operation, Dict.sorted action.arguments) := by
  unfold ForbiddenAction.signature at h
  dsimp only at h
  split at h
  · cases h
  · exact (Except.ok.inj h).symm

theorem alikeCall_of_signatures {a b : ForbiddenAction} {s t : ForbiddenSignature}
    (hs : a.signature = .ok s) (ht : b.signature = .ok t) (h : s.equal t = true) :
    AlikeCall a.call b.call := by
  obtain rfl := signature_eq_ok hs
  obtain rfl := signature_eq_ok ht
  rw [ForbiddenSignature.equal, Bool.and_eq_true, Bool.and_eq_true, decide_eq_true_eq,
    decide_eq_true_eq] at h
  refine ⟨h.1.1, h.1.2, Json.alike_obj_iff.mpr fun k => ?_⟩
  have hitems : Dict.Alike id Json.Alike (Dict.sorted a.arguments) (Dict.sorted b.arguments) :=
    forall₂_of_isEqv (fun {item item'} hitem => by
      rw [Bool.and_eq_true, decide_eq_true_eq, Json.pyEq_iff] at hitem
      exact hitem) h.2
  have hread := hitems.get? Function.injective_id k
  rw [id, Dict.get?_sorted, Dict.get?_sorted] at hread
  exact Json.alikeReading_of_rel hread

/-- **What the validator compares** of a variant and its parent: each action of the one contract has
an action of the other that is `==`, but for its reason. -/
structure SameActions (task parent : BenchmarkTask) : Prop where
  expected : ∀ a ∈ task.expectedActions, ∃ b ∈ parent.expectedActions, AlikeCall a.call b.call
  expected' : ∀ b ∈ parent.expectedActions, ∃ a ∈ task.expectedActions, AlikeCall b.call a.call
  forbidden : ∀ a ∈ task.forbiddenActions, ∃ b ∈ parent.forbiddenActions, AlikeCall a.call b.call
  forbidden' : ∀ b ∈ parent.forbiddenActions, ∃ a ∈ task.forbiddenActions, AlikeCall b.call a.call

theorem SameActions.symm {task parent : BenchmarkTask} (h : SameActions task parent) :
    SameActions parent task :=
  ⟨h.expected', h.expected, h.forbidden', h.forbidden⟩

/-- **A variant that is accepted has its parent's actions.** -/
theorem sameActions_of_validateVariant {variant : AdversarialVariant}
    {parentTasksById : Dict String BenchmarkTask} {existingTaskIds : List String}
    {parent : BenchmarkTask}
    (hparent : Dict.get? parentTasksById variant.parentTaskId = some parent)
    (hvalid : validateVariant variant parentTasksById existingTaskIds = .ok true)
    (hpreserving : ContractPreserving variant.mutationType) :
    SameActions variant.task parent := by
  unfold validateVariant at hvalid
  rw [hparent] at hvalid
  split_ifs at hvalid with hempty
  · cases hvalid
  dsimp only at hvalid
  split_ifs at hvalid with hexisting hallowed hequal
  · cases hvalid
  · cases hvalid
  · obtain ⟨exist, -, hvalid⟩ := except_bind_eq_ok.mp hvalid
    split_ifs at hvalid <;> cases hvalid
  · obtain ⟨exist, -, hvalid⟩ := except_bind_eq_ok.mp hvalid
    split_ifs at hvalid
    · cases hvalid
    obtain ⟨signatures, hsignatures, hvalid⟩ := except_bind_eq_ok.mp hvalid
    obtain ⟨signatures', hsignatures', hvalid⟩ := except_bind_eq_ok.mp hvalid
    have hsame := Except.ok.inj hvalid
    rw [sameSignatures, Bool.and_eq_true, List.all_eq_true, List.all_eq_true] at hsame
    obtain ⟨hexpected, hexpected'⟩ := exists_of_forall₂
      (forall₂_of_isEqv alikeCall_of_equal (by simpa using hequal))
    refine ⟨hexpected, fun b hb => ?_, fun a ha => ?_, fun b hb => ?_⟩
    · obtain ⟨a, ha, hab⟩ := hexpected' b hb
      exact ⟨a, ha, hab.symm⟩
    · obtain ⟨s, hs, has⟩ := exists_of_mapM hsignatures ha
      obtain ⟨t, ht, heq⟩ := List.any_eq_true.mp (hsame.1 s hs)
      obtain ⟨b, hb, hbt⟩ := exists_of_mem_mapM hsignatures' ht
      exact ⟨b, hb, alikeCall_of_signatures has hbt heq⟩
    · obtain ⟨t, ht, hbt⟩ := exists_of_mapM hsignatures' hb
      obtain ⟨s, hs, heq⟩ := List.any_eq_true.mp (hsame.2 t ht)
      obtain ⟨a, ha, has⟩ := exists_of_mem_mapM hsignatures hs
      exact ⟨a, ha, (alikeCall_of_signatures has hbt heq).symm⟩

/-! ## The contracts -/

theorem SameActions.followed_of {task parent : BenchmarkTask} (h : SameActions task parent)
    (htask : task.WellKeyed) (hparent : parent.WellKeyed) {calls : List ToolCall}
    (hcalls : task.Followed calls) : parent.Followed calls := by
  refine ⟨fun b hb => ?_, fun b hb call hcall => Bool.eq_false_iff.mpr fun hforbids => ?_⟩
  · obtain ⟨a, ha, hba⟩ := h.expected' b hb
    obtain ⟨call, hcall, hmet⟩ := hcalls.1 a ha
    exact ⟨call, hcall, matchesAction_of_alike hba.symm
      (Json.distinctKeys_obj_iff.mp (hparent.expected b hb)).1 hmet⟩
  · obtain ⟨a, ha, hba⟩ := h.forbidden' b hb
    have hseen := matchesAction_of_alike hba
      (Json.distinctKeys_obj_iff.mp (htask.forbidden a ha)).1 hforbids
    exact absurd ((hcalls.2 a ha call hcall).symm.trans hseen) Bool.false_ne_true

/-- **The same calls follow the two contracts.** -/
theorem SameActions.followed_iff {task parent : BenchmarkTask} (h : SameActions task parent)
    (htask : task.WellKeyed) (hparent : parent.WellKeyed) (calls : List ToolCall) :
    task.Followed calls ↔ parent.Followed calls :=
  ⟨h.followed_of htask hparent, h.symm.followed_of hparent htask⟩

section Scored

variable [Interpreter]

/-- **A variant that is accepted is scored like its parent exactly if** their expected final states
are `==`, or the contract contradicts itself, so that no run passes it. -/
theorem validateVariant_sameContract_iff {variant : AdversarialVariant}
    {parentTasksById : Dict String BenchmarkTask} {existingTaskIds : List String}
    {parent : BenchmarkTask} (htaskKeys : variant.task.WellKeyed) (hparentKeys : parent.WellKeyed)
    (hparent : Dict.get? parentTasksById variant.parentTaskId = some parent)
    (hvalid : validateVariant variant parentTasksById existingTaskIds = .ok true)
    (hpreserving : ContractPreserving variant.mutationType) :
    (∀ (calls : List ToolCall) (finalState : Dict String Json),
        (scoreActions variant.task calls finalState).passed =
          (scoreActions parent calls finalState).passed) ↔
      Json.Alike (.obj variant.task.expectedFinalState) (.obj parent.expectedFinalState) ∨
        parent.Contradictory := by
  have hsame := (sameActions_of_validateVariant hparent hvalid hpreserving).followed_iff
    htaskKeys hparentKeys
  have hpassed : ∀ calls finalState, (scoreActions variant.task calls finalState).passed =
      (scoreActions parent calls finalState).passed ↔
        ((parent.Followed calls ∧
            Json.contained (.obj variant.task.expectedFinalState) (.obj finalState) = true) ↔
          parent.Followed calls ∧
            Json.contained (.obj parent.expectedFinalState) (.obj finalState) = true) :=
    fun calls finalState => by
      rw [Bool.eq_iff_iff, passed_iff, passed_iff, hsame]
  refine (forall₂_congr hpassed).trans ⟨?_, ?_⟩
  · intro hscored
    by_cases hcontradictory : parent.Contradictory
    · exact .inr hcontradictory
    · have hfollowed := followed_of_not_contradictory hparentKeys hcontradictory
      -- each expected final state, taken as the state the run ends in, contains the other
      have htask := (hscored _ parent.expectedFinalState).mpr
        ⟨hfollowed, Json.contained_refl hparentKeys.expectedFinalState⟩
      have hback := (hscored _ variant.task.expectedFinalState).mp
        ⟨hfollowed, Json.contained_refl htaskKeys.expectedFinalState⟩
      exact .inl (Json.alike_of_contained htask.2 hback.2)
  · rintro (halike | hcontradictory) calls finalState
    · refine and_congr_right fun _ => ⟨fun h => ?_, fun h => ?_⟩
      · exact Json.contained_trans
          (Json.contained_of_alike hparentKeys.expectedFinalState halike.symm) h
      · exact Json.contained_trans
          (Json.contained_of_alike htaskKeys.expectedFinalState halike) h
    · have hnone := not_followed_of_contradictory hcontradictory calls
      exact ⟨fun h => absurd h.1 hnone, fun h => absurd h.1 hnone⟩

end Scored

/-- A paraphrase of the seed task that leaves another expected final state. -/
def paraphrased (expectedFinalState : Dict String Json) : AdversarialVariant where
  task :=
    { customerRefundWithinPolicy with
      taskId := "support_refund_within_30_days_001__paraphrase_7"
      expectedFinalState := expectedFinalState }
  parentTaskId := customerRefundWithinPolicy.taskId
  mutationType := "paraphrase"
  randomSeed := 7
  validatorResult := true

theorem wellKeyed_customerRefundWithinPolicy : customerRefundWithinPolicy.WellKeyed where
  initialState := by decide
  expected := by decide
  forbidden := by decide
  expectedFinalState := by decide

theorem wellKeyed_paraphrased {expectedFinalState : Dict String Json}
    (h : (Json.obj expectedFinalState).distinctKeys = true) :
    (paraphrased expectedFinalState).task.WellKeyed :=
  { wellKeyed_customerRefundWithinPolicy with expectedFinalState := h }

/-- A paraphrase with the parent's expected final state is scored like the parent. -/
theorem validateVariant_sameContract_iff_paraphrased :
    let _ := cpython
    ∀ (calls : List ToolCall) (finalState : Dict String Json),
      (scoreActions (paraphrased customerRefundWithinPolicy.expectedFinalState).task calls
        finalState).passed = (scoreActions customerRefundWithinPolicy calls finalState).passed :=
  let _ := cpython
  have hvalid : validateVariant (paraphrased customerRefundWithinPolicy.expectedFinalState)
      [(customerRefundWithinPolicy.taskId, customerRefundWithinPolicy)] [] = .ok true := by
    decide +kernel
  (validateVariant_sameContract_iff
    (wellKeyed_paraphrased wellKeyed_customerRefundWithinPolicy.expectedFinalState)
    wellKeyed_customerRefundWithinPolicy (by decide +kernel) hvalid (by decide +kernel)).mpr
    (.inl (Json.Alike.refl _))

/-- **A paraphrase that expects nothing of the final state is accepted**, and the expected actions
alone pass it, with no refund recorded. -/
theorem not_validateVariant_sameContract :
    let _ := cpython
    ¬∀ (variant : AdversarialVariant) (parentTasksById : Dict String BenchmarkTask)
      (existingTaskIds : List String) (parent : BenchmarkTask),
      variant.task.WellKeyed → parent.WellKeyed →
      Dict.get? parentTasksById variant.parentTaskId = some parent →
      validateVariant variant parentTasksById existingTaskIds = .ok true →
      ContractPreserving variant.mutationType →
      ∀ (calls : List ToolCall) (finalState : Dict String Json),
        (scoreActions variant.task calls finalState).passed =
          (scoreActions parent calls finalState).passed := by
  intro _ h
  have hscored := h (paraphrased [])
    [(customerRefundWithinPolicy.taskId, customerRefundWithinPolicy)] []
    customerRefundWithinPolicy (wellKeyed_paraphrased (by decide))
    wellKeyed_customerRefundWithinPolicy (by decide +kernel) (by decide +kernel)
    (by decide +kernel) (customerRefundWithinPolicy.expectedActions.map ExpectedAction.call) []
  exact absurd hscored (by decide +kernel)

end AgentProof
