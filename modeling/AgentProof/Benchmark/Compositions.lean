import AgentProof.Benchmark.Contradictions

/-!
# Benchmark/Compositions — what a composition of mutations returns

    task ──m₁──▸ task₁ ──m₂──▸ ⋯ ──mₙ──▸ variant ──▸ validate_variant

Each mutation keeps what the validator asks of a task (`Composable`), and the mutations that preserve
the contract keep the contract, so a composition that reports success is accepted whatever it is
made of.  One that reports failure stopped before its first step that does not apply
(`composeMutations_valid`).
-/

open Machinery Machinery.Raising

namespace AgentProof

/-! ## Types joined with a plus -/

/-- A name that can be joined with others: it has letters, and no plus among them. -/
def Joinable (mutationType : String) : Prop := mutationType ≠ "" ∧ '+' ∉ mutationType.toList

instance (mutationType : String) : Decidable (Joinable mutationType) :=
  inferInstanceAs (Decidable (_ ∧ _))

/-- **Joined types are split again**, if there is one at least. -/
theorem appliedTypes_intercalate {mutationTypes : List String}
    (hjoinable : ∀ mutationType ∈ mutationTypes, Joinable mutationType)
    (htypes : mutationTypes ≠ []) : appliedTypes ("+".intercalate mutationTypes) = mutationTypes := by
  have hletters : ∀ letters ∈ mutationTypes.map String.toList, '+' ∉ letters := by
    simpa using fun mutationType hmem => (hjoinable mutationType hmem).2
  rw [appliedTypes, String.toList_intercalate,
    show "+".toList = ['+'] from rfl, List.splitOn_intercalate '+' hletters (by simpa using htypes),
    List.map_map]
  simp

/-- Joined types are not empty. -/
theorem intercalate_ne_empty {mutationTypes : List String}
    (hjoinable : ∀ mutationType ∈ mutationTypes, Joinable mutationType)
    (htypes : mutationTypes ≠ []) : "+".intercalate mutationTypes ≠ "" := by
  intro hempty
  have hsplit := appliedTypes_intercalate hjoinable htypes
  rw [hempty, show appliedTypes "" = [""] by decide] at hsplit
  exact (hjoinable "" (hsplit ▸ List.mem_singleton_self "")).1 rfl

/-! ## What the validator asks of a task -/

/-- **What `validate_variant` asks of the actions of a task**: the services have the operations, the
seeded state has the ids, and the arguments are scalars. -/
structure BenchmarkTask.Composable (task : BenchmarkTask) : Prop where
  expected : ∀ action ∈ task.expectedActions, allowed action.service action.operation = true
  forbidden : ∀ action ∈ task.forbiddenActions, allowed action.service action.operation = true
  idsExist : ∀ action ∈ task.expectedActions,
    referencedIdsExist action.arguments task.initialState = .ok true
  scalars : ∀ action ∈ task.forbiddenActions, ∀ item ∈ action.arguments, item.2.hashable = true

/-- A collection of the state has a value among its ids. -/
def HasId (initialState : Dict String Json) (collection : String) (value : Json) : Prop :=
  ((Dict.get? initialState collection).getD (.obj [])).contains value = .ok true

theorem referencedIdsExist_eq_ok_iff {arguments initialState : Dict String Json} :
    referencedIdsExist arguments initialState = .ok true ↔
      ∀ entry ∈ idArgumentToStateCollection, ∀ value, Dict.get? arguments entry.1 = some value →
        HasId initialState entry.2 value := by
  rw [referencedIdsExist, allM_eq_ok_true_iff]
  refine forall₂_congr fun entry hentry => ?_
  cases hread : Dict.get? arguments entry.1 <;> simp [hread, HasId, pure, Except.pure]

/-- **A field that is set leaves the ids as they are.** -/
theorem hasId_withField {state state' : Dict String Json} {collection field : String}
    {id value : Json} (h : withField state collection id field value = .ok state')
    (collection' : String) (value' : Json) :
    HasId state' collection' value' ↔ HasId state collection' value' := by
  obtain ⟨k, entries, entity, rfl, hentries, hentity, rfl⟩ := withField_eq_ok.mp h
  rw [HasId, HasId]
  by_cases hcollection : collection = collection'
  · subst hcollection
    rw [Dict.get?_set_self, hentries, Option.getD_some, Option.getD_some,
      Json.contains_set hentity]
  · rw [Dict.get?_set_of_ne _ hcollection]

/-- Arguments that name the same ids, in states that have the same ids. -/
theorem referencedIdsExist_congr {arguments arguments' state state' : Dict String Json}
    (harguments : ∀ entry ∈ idArgumentToStateCollection,
      Dict.get? arguments' entry.1 = Dict.get? arguments entry.1)
    (hstate : ∀ collection value, HasId state' collection value ↔ HasId state collection value)
    (h : referencedIdsExist arguments state = .ok true) :
    referencedIdsExist arguments' state' = .ok true := by
  rw [referencedIdsExist_eq_ok_iff] at h ⊢
  intro entry hentry value hvalue
  rw [harguments entry hentry] at hvalue
  exact (hstate _ _).mpr (h entry hentry value hvalue)

/-! ## What the validator finds -/

theorem BenchmarkTask.Composable.exists_signature {task : BenchmarkTask} (h : task.Composable) :
    ∃ signatures, forbiddenSignatures task.forbiddenActions = .ok signatures := by
  refine exists_mapM_eq_ok fun action haction =>
    ⟨(action.service, action.operation, Dict.sorted action.arguments), ?_⟩
  rw [ForbiddenAction.signature]
  have hnone : (Dict.sorted action.arguments).find? (fun item => !item.2.hashable) = none := by
    rw [List.find?_eq_none]
    intro item hitem
    simp [h.scalars action haction item (Dict.mem_sorted hitem)]
  rw [hnone]

theorem ForbiddenSignature.equal_refl (signature : ForbiddenSignature) :
    signature.equal signature = true := by
  have hitems : ∀ items : Dict String Json,
      items.isEqv items (fun item item' => item.1 = item'.1 && item.2.pyEq item'.2) = true :=
    fun items => by induction items <;> simp_all [List.isEqv]
  simp [ForbiddenSignature.equal, hitems]

theorem sameSignatures_refl (signatures : List ForbiddenSignature) :
    sameSignatures signatures signatures = true := by
  have hself : (signatures.all fun a => signatures.any fun b => a.equal b) = true :=
    List.all_eq_true.mpr fun a ha =>
      List.any_eq_true.mpr ⟨a, ha, ForbiddenSignature.equal_refl a⟩
  rw [sameSignatures, hself, Bool.true_and]
  exact List.all_eq_true.mpr fun a ha =>
    List.any_eq_true.mpr ⟨a, ha, ForbiddenSignature.equal_refl a⟩

theorem ExpectedAction.isEqv_refl (actions : List ExpectedAction) :
    actions.isEqv actions ExpectedAction.equal = true := by
  induction actions <;> simp_all [List.isEqv, ExpectedAction.equal]

/-- **What the validator accepts**: a task that is composable, whose actions are its parent's if
every mutation preserves the contract. -/
theorem validateVariant_of_composable {variant : AdversarialVariant} {parent : BenchmarkTask}
    {parentTasksById : Dict String BenchmarkTask} {existingTaskIds : List String}
    (htask : variant.task.Composable) (htype : variant.mutationType ≠ "")
    (hid : variant.parentTaskId ≠ "")
    (hparent : Dict.get? parentTasksById variant.parentTaskId = some parent)
    (hnew : variant.task.taskId ∉ existingTaskIds)
    (hkeeps : ContractPreserving variant.mutationType → KeepsContract parent variant.task) :
    validateVariant variant parentTasksById existingTaskIds = .ok true := by
  have hallowed : ((variant.task.expectedActions.all fun action =>
      allowed action.service action.operation) &&
        variant.task.forbiddenActions.all fun action => allowed action.service action.operation) =
      true := by
    rw [Bool.and_eq_true, List.all_eq_true, List.all_eq_true]
    exact ⟨htask.expected, htask.forbidden⟩
  have hids : (variant.task.expectedActions.allM fun expected =>
      referencedIdsExist expected.arguments variant.task.initialState) = .ok true :=
    allM_eq_ok_true_iff.mpr htask.idsExist
  obtain ⟨signatures, hsignatures⟩ := htask.exists_signature
  rw [validateVariant, if_neg (not_or.mpr ⟨htype, hid⟩), hparent]
  simp only [if_neg hnew, hallowed, hids]
  by_cases hpreserving : ContractPreserving variant.mutationType
  · have hparent := hkeeps hpreserving
    simp [hpreserving, ← hparent.expectedActions, ← hparent.forbiddenActions, hsignatures,
      ExpectedAction.isEqv_refl, sameSignatures_refl, bind, Except.bind, pure, Except.pure]
  · simp [hpreserving, bind, Except.bind, pure, Except.pure]

/-! ## What each mutation keeps -/

theorem Json.hashable_of_add [Interpreter] {j : Json} {n : ℤ} {sum : Json}
    (h : j.add n = .ok sum) : sum.hashable = true := by
  cases j with
  | bool _ | int _ | float _ =>
    obtain rfl := Except.ok.inj h
    rfl
  | null | str _ | arr _ | obj _ => cases h

theorem decoyGuard_allowed (decoy : String) :
    allowed (decoyGuard decoy).service (decoyGuard decoy).operation = true := by
  change allowed "customer" "get_customer" = true
  decide

/-- The shifted actions are those of the contract, but for an amount. -/
theorem exists_of_mem_shiftRefund {actions : List ExpectedAction} {refundAction : ExpectedAction}
    (hfind : actions.find? ExpectedAction.isRefund = some refundAction) {newTotal : Json}
    {action : ExpectedAction} (h : action ∈ shiftRefund newTotal actions) :
    ∃ old ∈ actions, action = old ∨ action = old.withAmount newTotal := by
  rcases (mem_shiftRefund_iff hfind _ _).mp h with rfl | hold
  · exact ⟨refundAction, List.mem_of_find?_eq_some hfind, .inr rfl⟩
  · exact ⟨action, List.mem_of_mem_eraseP hold, .inl rfl⟩

/-- An amount is no id. -/
theorem get?_withAmount (action : ExpectedAction) (amount : Json) :
    ∀ entry ∈ idArgumentToStateCollection,
      Dict.get? (action.withAmount amount).arguments entry.1 = Dict.get? action.arguments entry.1 := by
  intro entry hentry
  have hname : "amount_cents" ≠ entry.1 := by
    have hall : ∀ entry ∈ idArgumentToStateCollection, "amount_cents" ≠ entry.1 := by decide
    exact hall entry hentry
  exact Dict.get?_set_of_ne _ hname amount

section Mutations

variable [RandomGenerator]

theorem createMissing_composable [UnicodeData] {task : BenchmarkTask} (h : task.Composable)
    (randomSeed : ℤ) :
    (createMissingCustomerInformationVariant task randomSeed).task.Composable := by
  rw [createMissingCustomerInformationVariant]
  split
  · exact h
  · refine ⟨h.expected, fun action haction => ?_, h.idsExist, fun action haction => ?_⟩
    · rcases List.mem_append.mp haction with hold | hguard
      · exact h.forbidden action hold
      · obtain rfl := List.mem_singleton.mp hguard
        exact decoyGuard_allowed _
    · rcases List.mem_append.mp haction with hold | hguard
      · exact h.scalars action hold
      · obtain rfl := List.mem_singleton.mp hguard
        simp [decoyGuard, Json.hashable]

variable [Interpreter]

theorem createBoundary_composable {task : BenchmarkTask} {randomSeed : ℤ}
    {variant : AdversarialVariant} (htask : task.Composable)
    (h : createBoundaryRefundAmountVariant task randomSeed = .ok variant) :
    variant.task.Composable := by
  rcases createBoundary_eq_ok h with ⟨-, rfl⟩ | ⟨shift, _, _, hdraw, hstate, -, rfl⟩
  · exact htask
  obtain ⟨hfind, -, _, _, -, -, -, -, -, hguarded⟩ := drawBoundary_eq_some hdraw
  refine ⟨fun action haction => ?_, fun action haction => ?_, fun action haction => ?_,
    fun action haction => ?_⟩
  · obtain ⟨old, hold, hsame | hshifted⟩ := exists_of_mem_shiftRefund hfind haction
    · exact hsame ▸ htask.expected old hold
    · exact hshifted ▸ htask.expected old hold
  · obtain ⟨old, hold, rfl⟩ := List.mem_map.mp haction
    rw [ForbiddenAction.shiftGuard]
    split_ifs <;> exact htask.forbidden old hold
  · obtain ⟨old, hold, rfl | rfl⟩ := exists_of_mem_shiftRefund hfind haction
    · exact referencedIdsExist_congr (fun _ _ => rfl) (hasId_withField hstate)
        (htask.idsExist _ hold)
    · exact referencedIdsExist_congr (get?_withAmount _ _) (hasId_withField hstate)
        (htask.idsExist _ hold)
  · obtain ⟨old, hold, rfl⟩ := List.mem_map.mp haction
    rw [ForbiddenAction.shiftGuard]
    split_ifs
    · intro item hitem
      rcases Dict.mem_set hitem with rfl | hitem
      · exact Json.hashable_of_add hguarded
      · exact htask.scalars old hold item hitem
    · exact htask.scalars old hold

variable [UnicodeData]

/-- **Each mutation keeps what the validator asks of a task.** -/
theorem applyMutation_composable {mutationType : String} {task : BenchmarkTask} {randomSeed : ℤ}
    {variant : AdversarialVariant} (htask : task.Composable)
    (h : applyMutation mutationType task randomSeed = .ok variant) : variant.task.Composable := by
  rcases applyMutation_cases h with ⟨-, hkeeps, hstate⟩ | ⟨-, rfl⟩ | ⟨-, hboundary⟩
  · refine ⟨hkeeps.expectedActions ▸ htask.expected, hkeeps.forbiddenActions ▸ htask.forbidden,
      fun action haction => ?_, hkeeps.forbiddenActions ▸ htask.scalars⟩
    rw [hkeeps.expectedActions] at haction
    rcases hstate with hsame | ⟨noise, -, hnoise⟩
    · exact hsame ▸ htask.idsExist action haction
    · exact referencedIdsExist_congr (fun _ _ => rfl) (hasId_withField hnoise)
        (htask.idsExist action haction)
  · exact createMissing_composable htask randomSeed
  · exact createBoundary_composable htask hboundary

/-- What a mutation makes: the task itself, or a task with an id of its own. -/
def MadeOf (task : BenchmarkTask) (mutationType : String) (randomSeed : ℤ)
    (variant : AdversarialVariant) : Prop :=
  variant = notApplied task mutationType randomSeed ∨
    ∃ mutated label, variant = applied task mutated label mutationType randomSeed

/-- The mutation types, each with what names it in the ids of its variants. -/
def mutationSlugs : List (String × String) :=
  [("typo_injection", "typo"), ("distractor_information", "distractor"),
    ("conflicting_detail", "conflict"), ("paraphrase", "paraphrase"),
    ("tool_result_noise", "noise"), ("missing_customer_information", "missing_customer"),
    ("boundary_refund_amount", "boundary")]

/-- A mutation makes the task itself, or a task with this name in its id. -/
def Makes (slug : String) (task : BenchmarkTask) (mutationType : String) (randomSeed : ℤ)
    (variant : AdversarialVariant) : Prop :=
  variant = notApplied task mutationType randomSeed ∨
    ∃ mutated, variant = applied task mutated slug mutationType randomSeed

omit [Interpreter] [UnicodeData] in
theorem replacePhrase_makes (replacements : List (String × String)) (label mutationType : String)
    (task : BenchmarkTask) (randomSeed : ℤ) : Makes label task mutationType randomSeed
      (replacePhrase replacements label mutationType task randomSeed) := by
  rw [replacePhrase]
  split
  · exact .inl rfl
  · exact .inr ⟨_, rfl⟩

/-- **Every registered mutation returns the task, or a task with its own name in the id.** -/
theorem applyMutation_makes {mutationType : String} {task : BenchmarkTask} {randomSeed : ℤ}
    {variant : AdversarialVariant} (h : applyMutation mutationType task randomSeed = .ok variant) :
    ∃ slug, (mutationType, slug) ∈ mutationSlugs ∧
      Makes slug task mutationType randomSeed variant := by
  obtain ⟨mutation, hmem, h⟩ := exists_of_applyMutation h
  simp only [mutationRegistry, List.mem_cons, Prod.mk.injEq, List.not_mem_nil, or_false] at hmem
  rcases hmem with ⟨rfl, rfl⟩ | ⟨rfl, rfl⟩ | ⟨rfl, rfl⟩ | ⟨rfl, rfl⟩ | ⟨rfl, rfl⟩ | ⟨rfl, rfl⟩ |
    ⟨rfl, rfl⟩
  · obtain rfl := Except.ok.inj h
    exact ⟨"typo", by decide, replacePhrase_makes _ _ _ _ _⟩
  · obtain rfl := Except.ok.inj h
    exact ⟨"distractor", by decide, .inr ⟨_, rfl⟩⟩
  · obtain rfl := Except.ok.inj h
    refine ⟨"conflict", by decide, ?_⟩
    rw [injectConflictingDetail]
    split
    · exact .inl rfl
    · exact .inr ⟨_, rfl⟩
  · obtain rfl := Except.ok.inj h
    exact ⟨"paraphrase", by decide, replacePhrase_makes _ _ _ _ _⟩
  · refine ⟨"noise", by decide, ?_⟩
    rcases injectToolResultNoise_eq_ok h with ⟨-, rfl⟩ | ⟨_, _, -, -, rfl⟩
    · exact .inl rfl
    · exact .inr ⟨_, rfl⟩
  · obtain rfl := Except.ok.inj h
    refine ⟨"missing_customer", by decide, ?_⟩
    rw [createMissingCustomerInformationVariant]
    split
    · exact .inl rfl
    · exact .inr ⟨_, rfl⟩
  · refine ⟨"boundary", by decide, ?_⟩
    rcases createBoundary_eq_ok h with ⟨-, rfl⟩ | ⟨_, _, _, -, -, -, rfl⟩
    · exact .inl rfl
    · exact .inr ⟨_, rfl⟩

/-- **Every registered mutation returns the task, or a task with an id of its own.** -/
theorem applyMutation_madeOf {mutationType : String} {task : BenchmarkTask} {randomSeed : ℤ}
    {variant : AdversarialVariant} (h : applyMutation mutationType task randomSeed = .ok variant) :
    Joinable mutationType ∧ MadeOf task mutationType randomSeed variant := by
  have hjoinable : ∀ entry ∈ mutationSlugs, Joinable entry.1 := by decide
  obtain ⟨slug, hslug, hmakes⟩ := applyMutation_makes h
  exact ⟨hjoinable _ hslug, hmakes.imp_right fun ⟨mutated, hmutated⟩ => ⟨mutated, slug, hmutated⟩⟩

omit [RandomGenerator] [Interpreter] [UnicodeData] in
/-- The id of a variant is longer than its parent's. -/
theorem MadeOf.taskId_length {task : BenchmarkTask} {mutationType : String} {randomSeed : ℤ}
    {variant : AdversarialVariant} (h : MadeOf task mutationType randomSeed variant)
    (hresult : variant.validatorResult = true) :
    task.taskId.length < variant.task.taskId.length := by
  rcases h with rfl | ⟨mutated, label, rfl⟩
  · cases hresult
  · change task.taskId.length < (task.taskId ++ "__" ++ label ++ "_" ++ toString randomSeed).length
    rw [String.length_append, String.length_append, String.length_append, String.length_append,
      show "_".length = 1 from rfl]
    omega

/-! ## The loop -/

/-- One step of the loop of `compose_mutations`. -/
theorem composeFrom_cons_eq_ok {randomSeed : ℤ} {mutationType : String}
    {mutationTypes : List String} {asked : List ℕ} {task last : BenchmarkTask}
    {appliedTypes appliedTypes' : List String} {result : Bool} :
    composeFrom randomSeed (mutationType :: mutationTypes) asked task appliedTypes =
        .ok (last, appliedTypes', result) ↔
      ∃ variant,
        applyMutation mutationType task (randint randomSeed asked 0 (2 ^ 31 - 1)) = .ok variant ∧
        ((variant.validatorResult = false ∧ last = task ∧
            appliedTypes' = appliedTypes ++ [mutationType] ∧ result = false) ∨
          (variant.validatorResult = true ∧
            composeFrom randomSeed mutationTypes (asked ++ [2 ^ 31]) variant.task
              (appliedTypes ++ [mutationType]) = .ok (last, appliedTypes', result))) := by
  rw [composeFrom, except_bind_eq_ok]
  refine exists_congr fun variant => and_congr_right fun _ => ?_
  cases variant.validatorResult with
  | false => simp [pure, Except.pure, eq_comm]
  | true => simp

/-- **A composition keeps what the validator asks of a task.**  Induction on the types that are
left. -/
theorem composeFrom_composable {randomSeed : ℤ} {last : BenchmarkTask}
    {appliedTypes' : List String} {result : Bool} :
    ∀ {mutationTypes : List String} {asked : List ℕ} {task : BenchmarkTask}
      {appliedTypes : List String}, task.Composable →
      composeFrom randomSeed mutationTypes asked task appliedTypes =
        .ok (last, appliedTypes', result) → last.Composable
  | [], _, _, _, htask, h => by
    obtain ⟨rfl, -⟩ := Prod.mk.inj (Except.ok.inj h)
    exact htask
  | _ :: _, _, _, _, htask, h => by
    obtain ⟨variant, hvariant, ⟨-, rfl, -⟩ | ⟨-, hrest⟩⟩ := composeFrom_cons_eq_ok.mp h
    · exact htask
    · exact composeFrom_composable (applyMutation_composable htask hvariant) hrest

/-- **A composition that reports success applied every type**, and its id is longer by one suffix
each. -/
theorem composeFrom_success {randomSeed : ℤ} {last : BenchmarkTask} {appliedTypes' : List String} :
    ∀ {mutationTypes : List String} {asked : List ℕ} {task : BenchmarkTask}
      {appliedTypes : List String},
      composeFrom randomSeed mutationTypes asked task appliedTypes =
        .ok (last, appliedTypes', true) →
      appliedTypes' = appliedTypes ++ mutationTypes ∧
        (∀ mutationType ∈ mutationTypes, Joinable mutationType) ∧
        task.taskId.length + mutationTypes.length ≤ last.taskId.length ∧
        ((∀ mutationType ∈ mutationTypes, mutationType ∈ contractPreservingMutations) →
          KeepsContract task last)
  | [], _, task, _, h => by
    obtain ⟨rfl, htypes⟩ := Prod.mk.inj (Except.ok.inj h)
    obtain ⟨rfl, -⟩ := Prod.mk.inj htypes
    exact ⟨(List.append_nil _).symm, by simp, le_rfl, fun _ => .refl task⟩
  | mutationType :: mutationTypes, asked, task, appliedTypes, h => by
    obtain ⟨variant, hvariant, ⟨-, -, -, hfalse⟩ | ⟨hresult, hrest⟩⟩ := composeFrom_cons_eq_ok.mp h
    · cases hfalse
    obtain ⟨hjoinable, hmade⟩ := applyMutation_madeOf hvariant
    obtain ⟨rfl, hjoinables, hlength, hkeeps⟩ := composeFrom_success hrest
    have hstep := hmade.taskId_length hresult
    refine ⟨by simp, List.forall_mem_cons.mpr ⟨hjoinable, hjoinables⟩, ?_, fun hpreserving => ?_⟩
    · rw [List.length_cons]
      omega
    · obtain ⟨hhead, htail⟩ := List.forall_mem_cons.mp hpreserving
      have hvariantKeeps : KeepsContract task variant.task := by
        rcases applyMutation_cases hvariant with ⟨-, hkeeps, -⟩ | ⟨rfl, -⟩ | ⟨rfl, -⟩
        · exact hkeeps
        · exact absurd hhead (by decide)
        · exact absurd hhead (by decide)
      exact hvariantKeeps.trans (hkeeps htail)

/-- What a composition that reports success did before its end reported success. -/
theorem composeFrom_prefix {randomSeed : ℤ} {last : BenchmarkTask} {appliedTypes' : List String} :
    ∀ {before after : List String} {asked : List ℕ} {task : BenchmarkTask}
      {appliedTypes : List String},
      composeFrom randomSeed (before ++ after) asked task appliedTypes =
        .ok (last, appliedTypes', true) →
      ∃ middle, composeFrom randomSeed before asked task appliedTypes =
        .ok (middle, appliedTypes ++ before, true)
  | [], _, _, task, appliedTypes, _ => ⟨task, by rw [List.append_nil]; rfl⟩
  | mutationType :: before, after, asked, task, appliedTypes, h => by
    obtain ⟨variant, hvariant, ⟨-, -, -, hfalse⟩ | ⟨hresult, hrest⟩⟩ := composeFrom_cons_eq_ok.mp h
    · cases hfalse
    obtain ⟨middle, hmiddle⟩ := composeFrom_prefix hrest
    refine ⟨middle, composeFrom_cons_eq_ok.mpr ⟨variant, hvariant, .inr ⟨hresult, ?_⟩⟩⟩
    rw [hmiddle, List.append_assoc, List.singleton_append]

/-- **A composition that reports failure stopped before its first step that does not apply.** -/
theorem composeFrom_failure {randomSeed : ℤ} {last : BenchmarkTask} {appliedTypes' : List String} :
    ∀ {mutationTypes : List String} {asked : List ℕ} {task : BenchmarkTask}
      {appliedTypes : List String},
      composeFrom randomSeed mutationTypes asked task appliedTypes =
        .ok (last, appliedTypes', false) →
      ∃ before mutationType after variant, mutationTypes = before ++ mutationType :: after ∧
        appliedTypes' = appliedTypes ++ (before ++ [mutationType]) ∧
        composeFrom randomSeed before asked task appliedTypes =
          .ok (last, appliedTypes ++ before, true) ∧
        applyMutation mutationType last
            (randint randomSeed (asked ++ List.replicate before.length (2 ^ 31)) 0 (2 ^ 31 - 1)) =
          .ok variant ∧
        variant.validatorResult = false
  | [], _, _, _, h => by
    obtain ⟨-, htypes⟩ := Prod.mk.inj (Except.ok.inj h)
    cases (Prod.mk.inj htypes).2
  | mutationType :: mutationTypes, asked, task, appliedTypes, h => by
    obtain ⟨variant, hvariant, ⟨hresult, rfl, rfl, -⟩ | ⟨hresult, hrest⟩⟩ :=
      composeFrom_cons_eq_ok.mp h
    · refine ⟨[], mutationType, mutationTypes, variant, rfl, rfl, ?_, ?_, hresult⟩
      · rw [List.append_nil]
        rfl
      · simpa using hvariant
    · obtain ⟨before, stopped, after, variant', rfl, rfl, hbefore, hstopped, hfalse⟩ :=
        composeFrom_failure hrest
      refine ⟨mutationType :: before, stopped, after, variant', rfl, by simp, ?_, ?_, hfalse⟩
      · refine composeFrom_cons_eq_ok.mpr ⟨variant, hvariant, .inr ⟨hresult, ?_⟩⟩
        rw [hbefore, List.append_assoc, List.singleton_append]
      · rw [List.append_assoc] at hstopped
        exact hstopped

/-! ## What `compose_mutations` returns -/

/-- **A composition that reports success is valid**: the validator accepts it, its type is split into
the types it was made of, and its id is new. -/
structure ValidComposition (task : BenchmarkTask) (mutationTypes : List String)
    (variant : AdversarialVariant) : Prop where
  accepted : ∀ (parentTasksById : Dict String BenchmarkTask) (existingTaskIds : List String),
    Dict.get? parentTasksById task.taskId = some task → variant.task.taskId ∉ existingTaskIds →
      validateVariant variant parentTasksById existingTaskIds = .ok true
  types : appliedTypes variant.mutationType = mutationTypes
  newId : variant.task.taskId ≠ task.taskId

/-- **A composition that reports failure stopped**: its type names the types up to the first that
does not apply, every composition of the types before it reports success, and its task is what they
make of the parent. -/
structure StoppedComposition (task : BenchmarkTask) (mutationTypes : List String)
    (randomSeed : ℤ) (variant : AdversarialVariant) (before : List String)
    (mutationType : String) : Prop where
  stopped : before ++ [mutationType] <+: mutationTypes
  types : appliedTypes variant.mutationType = before ++ [mutationType]
  shortest : ∀ types, types <+: before →
    ∃ earlier, composeMutations task types randomSeed = .ok earlier ∧ earlier.validatorResult = true
  result : composeMutations task before randomSeed =
    .ok ⟨variant.task, task.taskId, "+".intercalate before, randomSeed, true⟩
  inapplicable : ∃ step,
    applyMutation mutationType variant.task
        (randint randomSeed (List.replicate before.length (2 ^ 31)) 0 (2 ^ 31 - 1)) = .ok step ∧
      step.validatorResult = false

/-- A composition that succeeds has a type for each of its mutations. -/
theorem validComposition_of_composeFrom {task last : BenchmarkTask} {mutationTypes : List String}
    {randomSeed : ℤ} {applied : List String} (hid : task.taskId ≠ "") (htask : task.Composable)
    (htypes : mutationTypes ≠ [])
    (h : composeFrom randomSeed mutationTypes [] task [] = .ok (last, applied, true)) :
    ValidComposition task mutationTypes
      ⟨last, task.taskId, "+".intercalate applied, randomSeed, true⟩ := by
  obtain ⟨happlied, hjoinable, hlength, hkeeps⟩ := composeFrom_success h
  obtain rfl : applied = mutationTypes := happlied
  have hsplit := appliedTypes_intercalate hjoinable htypes
  refine ⟨fun parentTasksById existingTaskIds hparent hnew => ?_, hsplit, fun hsame => ?_⟩
  · refine validateVariant_of_composable (composeFrom_composable htask h)
      (intercalate_ne_empty hjoinable htypes) hid hparent hnew fun hpreserving => hkeeps ?_
    rw [ContractPreserving, hsplit] at hpreserving
    exact hpreserving
  · have hpos := List.length_pos_iff.mpr htypes
    change last.taskId = task.taskId at hsame
    rw [hsame] at hlength
    omega

theorem stoppedComposition_of_composeFrom {task last : BenchmarkTask} {mutationTypes : List String}
    {randomSeed : ℤ} {applied : List String}
    (h : composeFrom randomSeed mutationTypes [] task [] = .ok (last, applied, false)) :
    ∃ before mutationType, StoppedComposition task mutationTypes randomSeed
      ⟨last, task.taskId, "+".intercalate applied, randomSeed, false⟩ before mutationType := by
  obtain ⟨before, mutationType, after, step, rfl, rfl, hbefore, hstep, hfalse⟩ :=
    composeFrom_failure h
  have hjoinable : ∀ name ∈ before ++ [mutationType], Joinable name := by
    rw [List.forall_mem_append, List.forall_mem_singleton]
    exact ⟨(composeFrom_success hbefore).2.1, (applyMutation_madeOf hstep).1⟩
  rw [List.nil_append] at hbefore hstep ⊢
  refine ⟨before, mutationType, ⟨after, by simp⟩, appliedTypes_intercalate hjoinable (by simp), ?_,
    ?_, step, hstep, hfalse⟩
  · rintro types ⟨rest, rfl⟩
    obtain ⟨middle, hmiddle⟩ := composeFrom_prefix hbefore
    exact ⟨_, by rw [composeMutations, hmiddle]; rfl, rfl⟩
  · rw [composeMutations, hbefore]
    rfl

/-- **Composed variants are valid by construction**, and a composition that fails names the first
step that does not apply. -/
theorem composeMutations_valid {task : BenchmarkTask} {mutationTypes : List String}
    {randomSeed : ℤ} {variant : AdversarialVariant} (hid : task.taskId ≠ "")
    (htask : task.Composable) (htypes : mutationTypes ≠ [])
    (h : composeMutations task mutationTypes randomSeed = .ok variant) :
    variant.parentTaskId = task.taskId ∧
      (variant.validatorResult = true → ValidComposition task mutationTypes variant) ∧
      (variant.validatorResult = false → ∃ before mutationType,
        StoppedComposition task mutationTypes randomSeed variant before mutationType) := by
  rw [composeMutations] at h
  obtain ⟨⟨last, applied, result⟩, hfrom, h⟩ := except_bind_eq_ok.mp h
  obtain rfl := Except.ok.inj h
  refine ⟨rfl, fun hresult => ?_, fun hresult => ?_⟩
  · obtain rfl : result = true := hresult
    exact validComposition_of_composeFrom hid htask htypes hfrom
  · obtain rfl : result = false := hresult
    exact stoppedComposition_of_composeFrom hfrom

end Mutations

/-- A shifted total with noise in the state is a valid variant of the seed task. -/
theorem composeMutations_valid_seed :
    let _ := leastDraws
    let _ := cpython
    let _ := asciiDigits
    ∃ variant, composeMutations customerRefundWithinPolicy
        ["boundary_refund_amount", "tool_result_noise"] 7 = .ok variant ∧
      ValidComposition customerRefundWithinPolicy ["boundary_refund_amount", "tool_result_noise"]
        variant :=
  let _ := leastDraws
  let _ := cpython
  let _ := asciiDigits
  have hcomposable : customerRefundWithinPolicy.Composable :=
    ⟨by decide +kernel, by decide +kernel, by decide +kernel, by decide +kernel⟩
  ⟨_, rfl, (composeMutations_valid (by decide) hcomposable (by decide) rfl).2.1 rfl⟩

end AgentProof
