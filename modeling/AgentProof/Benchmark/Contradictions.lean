import AgentProof.Benchmark.Mutations
import AgentProof.Benchmark.Variants

/-!
# Benchmark/Contradictions — when a mutation makes a contract contradict itself

Two mutations edit the contract with values drawn at random.  A draw **collides** when the decoy is a
customer the contract expects to be looked up, or when the new total, or the amount above it, is one
the contract already has for the refund.

**A mutation makes a contract contradict itself exactly if its draw collides**
(`mutations_not_contradictory_iff`), alone or in a composition.
-/

open Machinery Machinery.Pattern Machinery.Raising

namespace AgentProof

/-! ## Actions but for their amount -/

/-- A call that a forbidden action forbids, whatever the amount. -/
def ForbiddenAction.forbidsButAmount (forbidden : ForbiddenAction) (call : ToolCall) : Bool :=
  call.matchesAction forbidden.service forbidden.operation
    (Dict.without forbidden.arguments "amount_cents")

/-- An item taken out of the expected ones is compared on its own. -/
theorem itemsLe_iff_without {expected actual : Dict String Json}
    (hkeys : (expected.map Prod.fst).Nodup) (key : String) :
    itemsLe expected actual = true ↔
      itemsLe (Dict.without expected key) actual = true ∧
        ∀ v, Dict.get? expected key = some v → ∃ w, Dict.get? actual key = some w ∧ v.Alike w := by
  simp only [itemsLe_iff, Dict.mem_without, and_imp]
  refine ⟨fun h => ⟨fun e he _ => h e he, fun v hv => ?_⟩, fun ⟨hrest, hkey⟩ e he => ?_⟩
  · exact h (key, v) (Dict.mem_of_get?_eq_some hv)
  · by_cases hname : e.1 = key
    · obtain ⟨w, hw, hvw⟩ := hkey e.2 (hname ▸ Dict.get?_eq_some_of_mem hkeys he)
      exact ⟨w, hname ▸ hw, hvw⟩
    · exact hrest e he hname

/-- Items that do not name a key are not compared under it. -/
theorem itemsLe_without_set {expected actual : Dict String Json} (key : String) (v : Json) :
    itemsLe (Dict.without expected key) (Dict.set actual key v) =
      itemsLe (Dict.without expected key) actual := by
  rw [Bool.eq_iff_iff, itemsLe_iff, itemsLe_iff]
  refine forall₂_congr fun e he => ?_
  rw [Dict.get?_set_of_ne _ (Dict.mem_without.mp he).2.symm]

/-- **What a forbidden action forbids**: the amount is compared on its own. -/
theorem forbids_iff {forbidden : ForbiddenAction} (hkeys : (forbidden.arguments.map Prod.fst).Nodup)
    {call : ToolCall} : forbidden.forbids call = true ↔ forbidden.forbidsButAmount call = true ∧
      ∀ v, Dict.get? forbidden.arguments "amount_cents" = some v →
        ∃ w, Dict.get? call.arguments "amount_cents" = some w ∧ v.Alike w := by
  rw [ForbiddenAction.forbids, ForbiddenAction.forbidsButAmount, matchesAction_iff,
    matchesAction_iff, itemsLe_iff_without hkeys "amount_cents", and_assoc, and_assoc]

/-- A forbidden action with another amount. -/
theorem forbids_withAmount_iff {forbidden : ForbiddenAction}
    (hkeys : (forbidden.arguments.map Prod.fst).Nodup) (amount : Json) {call : ToolCall} :
    ({ forbidden with arguments := Dict.set forbidden.arguments "amount_cents" amount } :
        ForbiddenAction).forbids call = true ↔ forbidden.forbidsButAmount call = true ∧
      ∃ w, Dict.get? call.arguments "amount_cents" = some w ∧ amount.Alike w := by
  rw [forbids_iff (Dict.nodup_keys_set hkeys _ _), ForbiddenAction.forbidsButAmount,
    ForbiddenAction.forbidsButAmount, Dict.without_set_self]
  simp

/-- An expected action with another amount. -/
abbrev ExpectedAction.withAmount (expected : ExpectedAction) (amount : Json) : ExpectedAction :=
  { expected with arguments := Dict.set expected.arguments "amount_cents" amount }

theorem forbidsButAmount_withAmount (forbidden : ForbiddenAction) (expected : ExpectedAction)
    (amount : Json) : forbidden.forbidsButAmount (expected.withAmount amount).call =
      forbidden.forbidsButAmount expected.call := by
  rw [ForbiddenAction.forbidsButAmount, ForbiddenAction.forbidsButAmount, ToolCall.matchesAction,
    ToolCall.matchesAction, ExpectedAction.call, ExpectedAction.call, itemsLe_without_set]

/-! ## The refund that is shifted -/

/-- The expected actions are the first refund and the others. -/
theorem mem_iff_of_find {actions : List ExpectedAction} {refundAction : ExpectedAction}
    (h : actions.find? ExpectedAction.isRefund = some refundAction) (expected : ExpectedAction) :
    expected ∈ actions ↔
      expected = refundAction ∨ expected ∈ actions.eraseP ExpectedAction.isRefund := by
  induction actions with
  | nil => exact absurd h (by simp)
  | cons action actions ih =>
    by_cases hrefund : action.isRefund = true
    · obtain rfl : action = refundAction := by simpa [hrefund] using h
      rw [List.eraseP_cons_of_pos hrefund, List.mem_cons]
    · rw [List.find?_cons_of_neg hrefund] at h
      rw [List.eraseP_cons_of_neg hrefund, List.mem_cons, List.mem_cons, ih h]
      exact or_left_comm

/-- **The shifted actions are the first refund, with the new amount, and the others.** -/
theorem mem_shiftRefund_iff {actions : List ExpectedAction} {refundAction : ExpectedAction}
    (h : actions.find? ExpectedAction.isRefund = some refundAction) (newTotal : Json)
    (expected : ExpectedAction) : expected ∈ shiftRefund newTotal actions ↔
      expected = refundAction.withAmount newTotal ∨
        expected ∈ actions.eraseP ExpectedAction.isRefund := by
  induction actions with
  | nil => exact absurd h (by simp)
  | cons action actions ih =>
    rw [shiftRefund]
    by_cases hrefund : action.isRefund = true
    · obtain rfl : action = refundAction := by simpa [hrefund] using h
      rw [if_pos hrefund, List.eraseP_cons_of_pos hrefund, List.mem_cons]
    · rw [List.find?_cons_of_neg hrefund] at h
      rw [if_neg hrefund, List.eraseP_cons_of_neg hrefund, List.mem_cons, List.mem_cons, ih h]
      exact or_left_comm

/-- **A shift of the refund's amount collides** with the contract. -/
inductive BoundaryShift.Collides (shift : BoundaryShift) (task : BenchmarkTask) : Prop
  /-- a forbidden action, not moved, has the new total for its amount -/
  | forbidden (forbidden : ForbiddenAction) (hmem : forbidden ∈ task.forbiddenActions)
      (hstays : forbidden.guardsTotal shift.orderId shift.guarded = false)
      (hcall : forbidden.forbidsButAmount shift.refundAction.call = true) (amount : Json)
      (hamount : Dict.get? forbidden.arguments "amount_cents" = some amount)
      (hnew : amount.Alike shift.newTotal)
  /-- the guard is moved onto the amount of another expected refund -/
  | guarded (forbidden : ForbiddenAction) (hmem : forbidden ∈ task.forbiddenActions)
      (hmoves : forbidden.guardsTotal shift.orderId shift.guarded = true)
      (expected : ExpectedAction)
      (hother : expected ∈ task.expectedActions.eraseP ExpectedAction.isRefund)
      (hcall : forbidden.forbidsButAmount expected.call = true) (amount : Json)
      (hamount : Dict.get? expected.arguments "amount_cents" = some amount)
      (hnew : shift.newGuarded.Alike amount)
  /-- the total is a float so large that one more is the same float -/
  | absorbed (forbidden : ForbiddenAction) (hmem : forbidden ∈ task.forbiddenActions)
      (hmoves : forbidden.guardsTotal shift.orderId shift.guarded = true)
      (hcall : forbidden.forbidsButAmount shift.refundAction.call = true)
      (hnew : shift.newGuarded.Alike shift.newTotal)

section Shifted

variable {task : BenchmarkTask} {shift : BoundaryShift}

theorem nodup_forbidden (hkeys : task.WellKeyed) :
    ∀ forbidden ∈ task.forbiddenActions, (forbidden.arguments.map Prod.fst).Nodup :=
  fun forbidden hmem => (Json.distinctKeys_obj_iff.mp (hkeys.forbidden forbidden hmem)).1

/-- A shifted action that is forbidden makes the shift collide. -/
theorem BoundaryShift.collides_of_forbids (hkeys : task.WellKeyed) (htask : ¬task.Contradictory)
    (hfind : task.expectedActions.find? ExpectedAction.isRefund = some shift.refundAction)
    {forbidden : ForbiddenAction} (hmem : forbidden ∈ task.forbiddenActions)
    {expected : ExpectedAction}
    (hexpected : expected ∈ shiftRefund shift.newTotal task.expectedActions)
    (hforbids : (forbidden.shiftGuard shift.orderId shift.guarded shift.newGuarded).forbids
      expected.call = true) : shift.Collides task := by
  have hclean : ∀ expected ∈ task.expectedActions, ¬forbidden.forbids expected.call = true :=
    fun expected hexp hforbids => htask ⟨forbidden, hmem, expected, hexp, hforbids⟩
  have hnodup := nodup_forbidden hkeys forbidden hmem
  rw [ForbiddenAction.shiftGuard] at hforbids
  split_ifs at hforbids with hguards
  · obtain ⟨hcall, amount, hamount, hnew⟩ := (forbids_withAmount_iff hnodup _).mp hforbids
    rcases (mem_shiftRefund_iff hfind _ _).mp hexpected with rfl | hother
    · rw [forbidsButAmount_withAmount] at hcall
      obtain rfl : shift.newTotal = amount := by simpa [ExpectedAction.call] using hamount
      exact .absorbed forbidden hmem hguards hcall hnew
    · exact .guarded forbidden hmem hguards expected hother hcall amount hamount hnew
  · rcases (mem_shiftRefund_iff hfind _ _).mp hexpected with rfl | hother
    · obtain ⟨hcall, hamount⟩ := (forbids_iff hnodup).mp hforbids
      rw [forbidsButAmount_withAmount] at hcall
      cases hread : Dict.get? forbidden.arguments "amount_cents" with
      | none =>
        -- without an amount of its own the action already forbade the refund
        have hrefund := (mem_iff_of_find hfind shift.refundAction).mpr (.inl rfl)
        refine absurd ((forbids_iff hnodup).mpr ⟨hcall, fun v hv => ?_⟩) (hclean _ hrefund)
        cases hread.symm.trans hv
      | some amount =>
        obtain ⟨w, hw, hnew⟩ := hamount amount hread
        obtain rfl : shift.newTotal = w := by simpa [ExpectedAction.call] using hw
        exact .forbidden forbidden hmem (by simpa using hguards) hcall amount hread hnew
    · exact absurd hforbids
        (hclean expected ((mem_iff_of_find hfind expected).mpr (.inr hother)))

/-- **A shift that collides makes an expected action forbidden.** -/
theorem BoundaryShift.Collides.exists_forbids (h : shift.Collides task) (hkeys : task.WellKeyed)
    (hfind : task.expectedActions.find? ExpectedAction.isRefund = some shift.refundAction) :
    ∃ forbidden ∈ task.forbiddenActions,
      ∃ expected ∈ shiftRefund shift.newTotal task.expectedActions,
        (forbidden.shiftGuard shift.orderId shift.guarded shift.newGuarded).forbids
          expected.call = true := by
  have hnodup := nodup_forbidden hkeys
  have hshifted := (mem_shiftRefund_iff hfind shift.newTotal
    (shift.refundAction.withAmount shift.newTotal)).mpr (.inl rfl)
  have hread : Dict.get? (shift.refundAction.withAmount shift.newTotal).call.arguments
      "amount_cents" = some shift.newTotal := by simp [ExpectedAction.call]
  cases h with
  | forbidden forbidden hmem hstays hcall amount hamount hnew =>
    refine ⟨forbidden, hmem, _, hshifted, ?_⟩
    rw [ForbiddenAction.shiftGuard, if_neg (by simp [hstays]),
      forbids_iff (hnodup forbidden hmem), forbidsButAmount_withAmount]
    refine ⟨hcall, fun v hv => ⟨shift.newTotal, hread, ?_⟩⟩
    obtain rfl : amount = v := Option.some.inj (hamount.symm.trans hv)
    exact hnew
  | guarded forbidden hmem hmoves expected hother hcall amount hamount hnew =>
    refine ⟨forbidden, hmem, expected, (mem_shiftRefund_iff hfind _ _).mpr (.inr hother), ?_⟩
    rw [ForbiddenAction.shiftGuard, if_pos hmoves, forbids_withAmount_iff (hnodup forbidden hmem)]
    exact ⟨hcall, amount, hamount, hnew⟩
  | absorbed forbidden hmem hmoves hcall hnew =>
    refine ⟨forbidden, hmem, _, hshifted, ?_⟩
    rw [ForbiddenAction.shiftGuard, if_pos hmoves, forbids_withAmount_iff (hnodup forbidden hmem),
      forbidsButAmount_withAmount]
    exact ⟨hcall, shift.newTotal, hread, hnew⟩

/-- **A contract with a shifted amount contradicts itself exactly if the shift collides.** -/
theorem shifted_contradictory_iff {mutated : BenchmarkTask} (hkeys : task.WellKeyed)
    (htask : ¬task.Contradictory)
    (hfind : task.expectedActions.find? ExpectedAction.isRefund = some shift.refundAction)
    (hexpected : mutated.expectedActions = shiftRefund shift.newTotal task.expectedActions)
    (hforbidden : mutated.forbiddenActions =
      task.forbiddenActions.map (.shiftGuard shift.orderId shift.guarded shift.newGuarded)) :
    mutated.Contradictory ↔ shift.Collides task := by
  rw [BenchmarkTask.Contradictory, hexpected, hforbidden]
  constructor
  · rintro ⟨_, hmoved, expected, hexp, hforbids⟩
    obtain ⟨forbidden, hmem, rfl⟩ := List.mem_map.mp hmoved
    exact BoundaryShift.collides_of_forbids hkeys htask hfind hmem hexp hforbids
  · intro hcollides
    obtain ⟨forbidden, hmem, expected, hexp, hforbids⟩ := hcollides.exists_forbids hkeys hfind
    exact ⟨_, List.mem_map_of_mem hmem, expected, hexp, hforbids⟩

end Shifted

/-! ## What each mutation does to the contract -/

/-- A mutation leaves the contract as it is. -/
structure KeepsContract (task mutated : BenchmarkTask) : Prop where
  expectedActions : mutated.expectedActions = task.expectedActions
  forbiddenActions : mutated.forbiddenActions = task.forbiddenActions
  expectedFinalState : mutated.expectedFinalState = task.expectedFinalState

theorem KeepsContract.refl (task : BenchmarkTask) : KeepsContract task task := ⟨rfl, rfl, rfl⟩

theorem KeepsContract.trans {task mutated mutated' : BenchmarkTask}
    (h : KeepsContract task mutated) (h' : KeepsContract mutated mutated') :
    KeepsContract task mutated' :=
  ⟨h'.expectedActions.trans h.expectedActions, h'.forbiddenActions.trans h.forbiddenActions,
    h'.expectedFinalState.trans h.expectedFinalState⟩

theorem KeepsContract.contradictory_iff {task mutated : BenchmarkTask}
    (h : KeepsContract task mutated) : mutated.Contradictory ↔ task.Contradictory := by
  rw [BenchmarkTask.Contradictory, h.expectedActions, h.forbiddenActions,
    BenchmarkTask.Contradictory]

section Mutations

variable [RandomGenerator]

theorem keepsContract_replacePhrase (replacements : List (String × String))
    (label mutationType : String) (task : BenchmarkTask) (randomSeed : ℤ) :
    KeepsContract task (replacePhrase replacements label mutationType task randomSeed).task := by
  rw [replacePhrase]
  split <;> exact ⟨rfl, rfl, rfl⟩

theorem keepsContract_injectConflictingDetail [UnicodeData] (task : BenchmarkTask)
    (randomSeed : ℤ) : KeepsContract task (injectConflictingDetail task randomSeed).task := by
  rw [injectConflictingDetail]
  split <;> exact ⟨rfl, rfl, rfl⟩

theorem replacePhrase_initialState (replacements : List (String × String))
    (label mutationType : String) (task : BenchmarkTask) (randomSeed : ℤ) :
    (replacePhrase replacements label mutationType task randomSeed).task.initialState =
      task.initialState := by
  rw [replacePhrase]
  split <;> rfl

theorem injectConflictingDetail_initialState [UnicodeData] (task : BenchmarkTask)
    (randomSeed : ℤ) :
    (injectConflictingDetail task randomSeed).task.initialState = task.initialState := by
  rw [injectConflictingDetail]
  split <;> rfl

/-- What `create_boundary_refund_amount_variant` returns. -/
theorem createBoundary_eq_ok {task : BenchmarkTask} {randomSeed : ℤ} {variant : AdversarialVariant}
    (h : createBoundaryRefundAmountVariant task randomSeed = .ok variant) :
    (drawBoundary task randomSeed = .ok none ∧
        variant = notApplied task "boundary_refund_amount" randomSeed) ∨
      ∃ shift mutatedState mutatedFinalState, drawBoundary task randomSeed = .ok (some shift) ∧
        withField task.initialState "orders" shift.orderId "total_cents" shift.newTotal =
          .ok mutatedState ∧
        shiftFinalState task.expectedFinalState shift.orderId shift.newTotal =
          .ok mutatedFinalState ∧
        variant = applied task
          { task with
            initialState := mutatedState
            expectedActions := shiftRefund shift.newTotal task.expectedActions
            forbiddenActions :=
              task.forbiddenActions.map (.shiftGuard shift.orderId shift.guarded shift.newGuarded)
            expectedFinalState := mutatedFinalState }
          "boundary" "boundary_refund_amount" randomSeed := by
  rw [createBoundaryRefundAmountVariant] at h
  obtain ⟨_ | shift, hdraw, h⟩ := except_bind_eq_ok.mp h
  · exact .inl ⟨hdraw, (Except.ok.inj h).symm⟩
  · obtain ⟨mutatedState, hstate, h⟩ := except_bind_eq_ok.mp h
    obtain ⟨mutatedFinalState, hfinal, h⟩ := except_bind_eq_ok.mp h
    exact .inr ⟨shift, mutatedState, mutatedFinalState, hdraw, hstate, hfinal,
      (Except.ok.inj h).symm⟩

omit [RandomGenerator] in
/-- A sum is a number. -/
theorem Json.distinctKeys_of_add {j : Json} {n : ℤ} {sum : Json} (h : j.add n = .ok sum) :
    sum.distinctKeys = true := by
  cases j with
  | bool _ | int _ | float _ =>
    obtain rfl := Except.ok.inj h
    rfl
  | null | str _ | arr _ | obj _ => cases h

/-- **A shift that was drawn**: the first refund is the refund of an order's total, and the draw is
added to the total. -/
theorem drawBoundary_eq_some {task : BenchmarkTask} {randomSeed : ℤ} {shift : BoundaryShift}
    (h : drawBoundary task randomSeed = .ok (some shift)) :
    task.expectedActions.find? ExpectedAction.isRefund = some shift.refundAction ∧
      shift.orderId = getArgument shift.refundAction.arguments "order_id" ∧
      ∃ order originalTotal,
        ((Dict.get? task.initialState "orders").getD (.obj [])).item shift.orderId = .ok order ∧
        order.subscript "total_cents" = .ok originalTotal ∧
        (getArgument shift.refundAction.arguments "amount_cents").pyEq originalTotal = true ∧
        originalTotal.add (randint randomSeed [] 1 200) = .ok shift.newTotal ∧
        originalTotal.add 1 = .ok shift.guarded ∧ shift.newTotal.add 1 = .ok shift.newGuarded := by
  rw [drawBoundary] at h
  split at h
  · cases h
  · rename_i refundAction hfind
    obtain ⟨found, -, h⟩ := except_bind_eq_ok.mp h
    split_ifs at h
    · cases h
    obtain ⟨order, horder, h⟩ := except_bind_eq_ok.mp h
    obtain ⟨originalTotal, htotal, h⟩ := except_bind_eq_ok.mp h
    split_ifs at h with hamount
    · cases h
    obtain ⟨newTotal, hnew, h⟩ := except_bind_eq_ok.mp h
    obtain ⟨guarded, hguarded, h⟩ := except_bind_eq_ok.mp h
    obtain ⟨newGuarded, hnewGuarded, h⟩ := except_bind_eq_ok.mp h
    obtain rfl := Option.some.inj (Except.ok.inj h)
    exact ⟨hfind, rfl, order, originalTotal, horder, htotal, by simpa using hamount, hnew, hguarded,
      hnewGuarded⟩

/-- What a shift that was drawn is made of. -/
theorem drawBoundary_eq_ok {task : BenchmarkTask} {randomSeed : ℤ} {shift : BoundaryShift}
    (h : drawBoundary task randomSeed = .ok (some shift)) :
    task.expectedActions.find? ExpectedAction.isRefund = some shift.refundAction ∧
      shift.newTotal.distinctKeys = true ∧ shift.newGuarded.distinctKeys = true := by
  obtain ⟨hfind, -, _, _, -, -, -, hnew, -, hnewGuarded⟩ := drawBoundary_eq_some h
  exact ⟨hfind, Json.distinctKeys_of_add hnew, Json.distinctKeys_of_add hnewGuarded⟩

variable [UnicodeData]

/-- The state a mutation seeds: the task's, with noise at most. -/
def SameStateOrNoise (task mutated : BenchmarkTask) (randomSeed : ℤ) : Prop :=
  mutated.initialState = task.initialState ∨
    ∃ noise, drawNoise task.initialState randomSeed = .ok (some noise) ∧
      withField task.initialState noise.collection noise.entityId noise.field noise.value =
        .ok mutated.initialState

/-- **The mutations that preserve the contract do**, and two others are registered. -/
theorem applyMutation_cases [Interpreter] {mutationType : String} {task : BenchmarkTask}
    {randomSeed : ℤ} {variant : AdversarialVariant}
    (h : applyMutation mutationType task randomSeed = .ok variant) :
    (mutationType ∈ contractPreservingMutations ∧ KeepsContract task variant.task ∧
        SameStateOrNoise task variant.task randomSeed) ∨
      (mutationType = "missing_customer_information" ∧
        variant = createMissingCustomerInformationVariant task randomSeed) ∨
      (mutationType = "boundary_refund_amount" ∧
        createBoundaryRefundAmountVariant task randomSeed = .ok variant) := by
  obtain ⟨mutation, hmem, h⟩ := exists_of_applyMutation h
  simp only [mutationRegistry, List.mem_cons, Prod.mk.injEq, List.not_mem_nil, or_false] at hmem
  rcases hmem with ⟨rfl, rfl⟩ | ⟨rfl, rfl⟩ | ⟨rfl, rfl⟩ | ⟨rfl, rfl⟩ | ⟨rfl, rfl⟩ | ⟨rfl, rfl⟩ |
    ⟨rfl, rfl⟩
  · obtain rfl := Except.ok.inj h
    exact .inl ⟨by decide, keepsContract_replacePhrase _ _ _ _ _,
      .inl (replacePhrase_initialState _ _ _ _ _)⟩
  · obtain rfl := Except.ok.inj h
    exact .inl ⟨by decide, ⟨rfl, rfl, rfl⟩, .inl rfl⟩
  · obtain rfl := Except.ok.inj h
    exact .inl ⟨by decide, keepsContract_injectConflictingDetail _ _,
      .inl (injectConflictingDetail_initialState _ _)⟩
  · obtain rfl := Except.ok.inj h
    exact .inl ⟨by decide, keepsContract_replacePhrase _ _ _ _ _,
      .inl (replacePhrase_initialState _ _ _ _ _)⟩
  · refine .inl ⟨by decide, ?_⟩
    rcases injectToolResultNoise_eq_ok h with ⟨-, rfl⟩ | ⟨noise, _, hdraw, hstate, rfl⟩
    · exact ⟨.refl task, .inl rfl⟩
    · exact ⟨⟨rfl, rfl, rfl⟩, .inr ⟨noise, hdraw, hstate⟩⟩
  · exact .inr (.inl ⟨rfl, (Except.ok.inj h).symm⟩)
  · exact .inr (.inr ⟨rfl, h⟩)

/-! ## Draws that collide -/

/-- **A draw collides** with the contract of the task. -/
inductive DrawCollides (mutationType : String) (task : BenchmarkTask) (randomSeed : ℤ) : Prop
  /-- the decoy is a customer that the contract expects to be looked up -/
  | decoy (htype : mutationType = "missing_customer_information")
      (hmention : (search (· = '\n') customerMentionPattern true task.input.toList).isSome = true)
      (expected : ExpectedAction) (hmem : expected ∈ task.expectedActions)
      (hservice : expected.service = "customer") (hoperation : expected.operation = "get_customer")
      (hid : Dict.get? expected.arguments "customer_id" = some (.str (decoyCustomerId randomSeed)))
  /-- the new total, or the amount above it, is an amount of the contract -/
  | boundary (htype : mutationType = "boundary_refund_amount") (shift : BoundaryShift)
      (hdraw : drawBoundary task randomSeed = .ok (some shift)) (hcollides : shift.Collides task)

omit [RandomGenerator] [UnicodeData] in
theorem decoyGuard_forbids_iff {decoy : String} {call : ToolCall} :
    (decoyGuard decoy).forbids call = true ↔ call.service = "customer" ∧
      call.operation = "get_customer" ∧
        Dict.get? call.arguments "customer_id" = some (.str decoy) := by
  rw [ForbiddenAction.forbids, matchesAction_iff, itemsLe_iff]
  refine and_congr_right fun _ => and_congr_right fun _ => ?_
  simp only [decoyGuard, List.mem_singleton, forall_eq]
  refine ⟨fun ⟨v, hv, halike⟩ => ?_, fun h => ⟨_, h, .refl _⟩⟩
  rw [hv, halike.str_iff.mp rfl]

omit [UnicodeData] in
/-- The decoy is one of a hundred ids. -/
theorem exists_decoyCustomerId (randomSeed : ℤ) :
    ∃ n : ℤ, 900 ≤ n ∧ n ≤ 999 ∧ decoyCustomerId randomSeed = s!"CUST-{n}" := by
  obtain ⟨hlow, hhigh⟩ := randint_mem randomSeed [] (show (0 : ℤ) ≤ 99 by decide)
  exact ⟨900 + randint randomSeed [] 0 99, by omega, by omega, rfl⟩

/-- **A contract that looks up none of these customers collides with no decoy**, whatever the
seed. -/
theorem not_drawCollides_of_ids {task : BenchmarkTask}
    (hids : ∀ expected ∈ task.expectedActions, ∀ n : ℤ, 900 ≤ n → n ≤ 999 →
      Dict.get? expected.arguments "customer_id" ≠ some (.str s!"CUST-{n}")) (randomSeed : ℤ) :
    ¬DrawCollides "missing_customer_information" task randomSeed := by
  rintro (⟨-, -, expected, hmem, -, -, hid⟩ | ⟨htype⟩)
  · obtain ⟨n, hlow, hhigh, hdecoy⟩ := exists_decoyCustomerId randomSeed
    exact hids expected hmem n hlow hhigh (hdecoy ▸ hid)
  · exact absurd htype (by decide)

/-- The guard against a decoy contradicts the contract exactly if the decoy is looked up. -/
theorem createMissing_contradictory_iff {task : BenchmarkTask} {randomSeed : ℤ}
    (htask : ¬task.Contradictory) :
    (createMissingCustomerInformationVariant task randomSeed).task.Contradictory ↔
      DrawCollides "missing_customer_information" task randomSeed := by
  rw [createMissingCustomerInformationVariant]
  split
  · rename_i hnone
    refine iff_of_false htask fun hcollides => ?_
    cases hcollides with
    | decoy _ hmention => simp [hnone] at hmention
    | boundary htype => exact absurd htype (by decide)
  · rename_i found hfound
    constructor
    · rintro ⟨forbidden, hforbidden, expected, hexpected, hforbids⟩
      rcases List.mem_append.mp hforbidden with hold | hnew
      · exact absurd ⟨forbidden, hold, expected, hexpected, hforbids⟩ htask
      · obtain rfl := List.mem_singleton.mp hnew
        obtain ⟨hservice, hoperation, hid⟩ := decoyGuard_forbids_iff.mp hforbids
        exact .decoy rfl (by simp [hfound]) expected hexpected hservice hoperation hid
    · intro hcollides
      cases hcollides with
      | decoy _ _ expected hmem hservice hoperation hid =>
        exact ⟨_, List.mem_append_right _ List.mem_cons_self, expected, hmem,
          decoyGuard_forbids_iff.mpr ⟨hservice, hoperation, hid⟩⟩
      | boundary htype => exact absurd htype (by decide)

omit [UnicodeData] in
/-- The shifted amount contradicts the contract exactly if the shift collides. -/
theorem createBoundary_contradictory_iff {task : BenchmarkTask} {randomSeed : ℤ}
    {variant : AdversarialVariant} (hkeys : task.WellKeyed) (htask : ¬task.Contradictory)
    (h : createBoundaryRefundAmountVariant task randomSeed = .ok variant) :
    variant.task.Contradictory ↔
      ∃ shift, drawBoundary task randomSeed = .ok (some shift) ∧ shift.Collides task := by
  rcases createBoundary_eq_ok h with ⟨hdraw, rfl⟩ | ⟨shift, _, _, hdraw, -, -, rfl⟩
  · refine iff_of_false htask ?_
    rintro ⟨shift, hdraw', -⟩
    cases hdraw.symm.trans hdraw'
  · rw [shifted_contradictory_iff hkeys htask (drawBoundary_eq_ok hdraw).1 rfl rfl]
    refine ⟨fun hcollides => ⟨shift, hdraw, hcollides⟩, fun ⟨shift', hdraw', hcollides⟩ => ?_⟩
    obtain rfl := Option.some.inj (Except.ok.inj (hdraw.symm.trans hdraw'))
    exact hcollides

/-- **One mutation makes a contract contradict itself exactly if its draw collides.** -/
theorem applyMutation_contradictory_iff [Interpreter] {mutationType : String} {task : BenchmarkTask}
    {randomSeed : ℤ} {variant : AdversarialVariant} (hkeys : task.WellKeyed)
    (htask : ¬task.Contradictory)
    (h : applyMutation mutationType task randomSeed = .ok variant) :
    variant.task.Contradictory ↔ DrawCollides mutationType task randomSeed := by
  rcases applyMutation_cases h with ⟨hpreserving, hkeeps, -⟩ | ⟨rfl, rfl⟩ | ⟨rfl, hboundary⟩
  · rw [hkeeps.contradictory_iff]
    refine iff_of_false htask fun hcollides => ?_
    rcases hcollides with ⟨rfl⟩ | ⟨rfl⟩ <;> exact absurd hpreserving (by decide)
  · exact createMissing_contradictory_iff htask
  · refine (createBoundary_contradictory_iff hkeys htask hboundary).trans ⟨?_, ?_⟩
    · rintro ⟨shift, hdraw, hcollides⟩
      exact .boundary rfl shift hdraw hcollides
    · intro hcollides
      cases hcollides with
      | decoy htype => exact absurd htype (by decide)
      | boundary _ shift hdraw hcollides => exact ⟨shift, hdraw, hcollides⟩

/-! ## Keys stay distinct -/

omit [RandomGenerator] [UnicodeData] in
theorem shiftRefund_distinctKeys {newTotal : Json} (hnew : newTotal.distinctKeys = true) :
    ∀ {actions : List ExpectedAction},
      (∀ action ∈ actions, (Json.obj action.arguments).distinctKeys = true) →
      ∀ action ∈ shiftRefund newTotal actions, (Json.obj action.arguments).distinctKeys = true
  | [], _, _, hmem => absurd hmem (by simp [shiftRefund])
  | first :: actions, h, action, hmem => by
    obtain ⟨hfirst, hrest⟩ := List.forall_mem_cons.mp h
    rw [shiftRefund] at hmem
    split_ifs at hmem
    · rcases List.mem_cons.mp hmem with rfl | hmem
      · exact Json.distinctKeys_set hfirst _ hnew
      · exact hrest action hmem
    · rcases List.mem_cons.mp hmem with rfl | hmem
      · exact hfirst
      · exact shiftRefund_distinctKeys hnew hrest action hmem

/-- **A mutation repeats no key.** -/
theorem applyMutation_wellKeyed [Interpreter] {mutationType : String} {task : BenchmarkTask}
    {randomSeed : ℤ} {variant : AdversarialVariant} (hkeys : task.WellKeyed)
    (h : applyMutation mutationType task randomSeed = .ok variant) : variant.task.WellKeyed := by
  rcases applyMutation_cases h with ⟨-, hkeeps, hstate⟩ | ⟨-, rfl⟩ | ⟨-, hboundary⟩
  · refine ⟨?_, hkeeps.expectedActions ▸ hkeys.expected,
      hkeeps.forbiddenActions ▸ hkeys.forbidden, hkeeps.expectedFinalState ▸ hkeys.expectedFinalState⟩
    rcases hstate with hsame | ⟨noise, hdraw, hstate⟩
    · exact hsame ▸ hkeys.initialState
    · obtain ⟨-, entry, -, -, hvalue⟩ := drawNoise_eq_ok hdraw
      exact distinctKeys_withField hkeys.initialState (hvalue ▸ rfl) hstate
  · rw [createMissingCustomerInformationVariant]
    split
    · exact hkeys
    · refine { hkeys with forbidden := fun action hmem => ?_ }
      rcases List.mem_append.mp hmem with hmem | hmem
      · exact hkeys.forbidden action hmem
      · obtain rfl := List.mem_singleton.mp hmem
        rfl
  · rcases createBoundary_eq_ok hboundary with ⟨-, rfl⟩ | ⟨shift, _, _, hdraw, hstate, hfinal, rfl⟩
    · exact hkeys
    · obtain ⟨-, hnew, hguarded⟩ := drawBoundary_eq_ok hdraw
      refine ⟨distinctKeys_withField hkeys.initialState hnew hstate,
        shiftRefund_distinctKeys hnew hkeys.expected, fun action hmem => ?_, ?_⟩
      · obtain ⟨forbidden, hforbidden, rfl⟩ := List.mem_map.mp hmem
        rw [ForbiddenAction.shiftGuard]
        split_ifs
        · exact Json.distinctKeys_set (hkeys.forbidden forbidden hforbidden) _ hguarded
        · exact hkeys.forbidden forbidden hforbidden
      · obtain ⟨found, -, hfinal⟩ := except_bind_eq_ok.mp hfinal
        split_ifs at hfinal
        · exact distinctKeys_withField hkeys.expectedFinalState hnew hfinal
        · obtain rfl := Except.ok.inj hfinal
          exact hkeys.expectedFinalState

/-! ## Compositions -/

variable [Interpreter]

/-- A draw that collides was used. -/
theorem validatorResult_of_drawCollides {mutationType : String} {task : BenchmarkTask}
    {randomSeed : ℤ} {variant : AdversarialVariant}
    (h : applyMutation mutationType task randomSeed = .ok variant)
    (hcollides : DrawCollides mutationType task randomSeed) : variant.validatorResult = true := by
  rcases applyMutation_cases h with ⟨hpreserving, -⟩ | ⟨rfl, rfl⟩ | ⟨rfl, hboundary⟩
  · rcases hcollides with ⟨rfl⟩ | ⟨rfl⟩ <;> exact absurd hpreserving (by decide)
  · rcases hcollides with ⟨-, hmention⟩ | ⟨htype⟩
    · obtain ⟨found, hfound⟩ := Option.isSome_iff_exists.mp hmention
      rw [createMissingCustomerInformationVariant, hfound]
      rfl
    · exact absurd htype (by decide)
  · rcases hcollides with ⟨htype⟩ | ⟨-, shift, hdraw⟩
    · exact absurd htype (by decide)
    · rcases createBoundary_eq_ok hboundary with ⟨hnone, -⟩ | ⟨_, _, _, -, -, -, rfl⟩
      · cases hnone.symm.trans hdraw
      · rfl

/-- One mutation of a composition: its type, the task it is applied to, and its seed. -/
structure MutationStep where
  mutationType : String
  task : BenchmarkTask
  randomSeed : ℤ

/-- The mutations that the loop of `compose_mutations` applies. -/
def stepsFrom (randomSeed : ℤ) : List String → List ℕ → BenchmarkTask → List MutationStep
  | [], _, _ => []
  | mutationType :: mutationTypes, asked, currentTask =>
    let stepSeed := randint randomSeed asked 0 (2 ^ 31 - 1)
    ⟨mutationType, currentTask, stepSeed⟩ ::
      match applyMutation mutationType currentTask stepSeed with
      | .error _ => []
      | .ok variant =>
        if variant.validatorResult then
          stepsFrom randomSeed mutationTypes (asked ++ [2 ^ 31]) variant.task
        else []

/-- The mutations that `compose_mutations` applies. -/
def composedSteps (task : BenchmarkTask) (mutationTypes : List String) (randomSeed : ℤ) :
    List MutationStep := stepsFrom randomSeed mutationTypes [] task

/-- No task on the way, and not the last one, contradicts itself. -/
def NoneContradictory (steps : List MutationStep) (last : BenchmarkTask) : Prop :=
  (∀ step ∈ steps, ¬step.task.Contradictory) ∧ ¬last.Contradictory

/-- No draw on the way collides. -/
def NoneCollides (steps : List MutationStep) : Prop :=
  ∀ step ∈ steps, ¬DrawCollides step.mutationType step.task step.randomSeed

/-- A composition starts at its task. -/
theorem not_contradictory_of_steps {randomSeed : ℤ} {mutationTypes : List String} {asked : List ℕ}
    {task last : BenchmarkTask} {appliedTypes appliedTypes' : List String} {result : Bool}
    (h : composeFrom randomSeed mutationTypes asked task appliedTypes =
      .ok (last, appliedTypes', result))
    (hnone : NoneContradictory (stepsFrom randomSeed mutationTypes asked task) last) :
    ¬task.Contradictory := by
  cases mutationTypes with
  | nil =>
    obtain ⟨rfl, -⟩ := Prod.mk.inj (Except.ok.inj h)
    exact hnone.2
  | cons mutationType mutationTypes => exact hnone.1 _ (List.mem_cons_self)

/-- **No task on the way contradicts itself exactly if no draw collides.**  Induction on the types
that are left; what one mutation does is `applyMutation_contradictory_iff`. -/
theorem composeFrom_iff {randomSeed : ℤ} {last : BenchmarkTask} {appliedTypes' : List String}
    {result : Bool} : ∀ {mutationTypes : List String} {asked : List ℕ} {task : BenchmarkTask}
      {appliedTypes : List String}, task.WellKeyed → ¬task.Contradictory →
      composeFrom randomSeed mutationTypes asked task appliedTypes =
        .ok (last, appliedTypes', result) →
      (NoneContradictory (stepsFrom randomSeed mutationTypes asked task) last ↔
        NoneCollides (stepsFrom randomSeed mutationTypes asked task))
  | [], _, task, _, _, htask, h => by
    obtain ⟨rfl, -⟩ := Prod.mk.inj (Except.ok.inj h)
    exact iff_of_true ⟨by simp [stepsFrom], htask⟩ (by simp [NoneCollides, stepsFrom])
  | mutationType :: mutationTypes, asked, task, appliedTypes, hkeys, htask, h => by
    rw [composeFrom] at h
    obtain ⟨variant, hvariant, h⟩ := except_bind_eq_ok.mp h
    have hstep := applyMutation_contradictory_iff hkeys htask hvariant
    rw [stepsFrom, hvariant]
    cases hresult : variant.validatorResult with
    | false =>
      simp only [hresult, Bool.not_false, ↓reduceIte] at h
      obtain ⟨rfl, -⟩ := Prod.mk.inj (Except.ok.inj h)
      refine iff_of_true ⟨by simpa [hresult] using htask, htask⟩ ?_
      have hno : ¬DrawCollides mutationType task (randint randomSeed asked 0 (2 ^ 31 - 1)) :=
        fun hcollides => by
          rw [validatorResult_of_drawCollides hvariant hcollides] at hresult
          cases hresult
      simpa [NoneCollides, hresult] using hno
    | true =>
      simp only [hresult, Bool.not_true, Bool.false_eq_true, ↓reduceIte] at h
      have hkeys' := applyMutation_wellKeyed hkeys hvariant
      simp only [NoneContradictory, NoneCollides, hresult, ↓reduceIte, List.forall_mem_cons]
      constructor
      · rintro ⟨⟨-, hsteps⟩, hlast⟩
        have hnext := not_contradictory_of_steps h ⟨hsteps, hlast⟩
        exact ⟨fun hcollides => hnext (hstep.mpr hcollides),
          (composeFrom_iff hkeys' hnext h).mp ⟨hsteps, hlast⟩⟩
      · rintro ⟨hhead, hsteps⟩
        have hnext := fun hcontradictory => hhead (hstep.mp hcontradictory)
        obtain ⟨hrest, hlast⟩ := (composeFrom_iff hkeys' hnext h).mpr hsteps
        exact ⟨⟨htask, hrest⟩, hlast⟩

/-- **Mutations keep a contract from contradicting itself exactly if no draw collides**: one
mutation, and every task on the way of a composition. -/
theorem mutations_not_contradictory_iff {task : BenchmarkTask} (hkeys : task.WellKeyed)
    (htask : ¬task.Contradictory) :
    (∀ (mutationType : String) (randomSeed : ℤ) (variant : AdversarialVariant),
      applyMutation mutationType task randomSeed = .ok variant →
        (¬variant.task.Contradictory ↔ ¬DrawCollides mutationType task randomSeed)) ∧
    ∀ (mutationTypes : List String) (randomSeed : ℤ) (variant : AdversarialVariant),
      composeMutations task mutationTypes randomSeed = .ok variant →
        (NoneContradictory (composedSteps task mutationTypes randomSeed) variant.task ↔
          NoneCollides (composedSteps task mutationTypes randomSeed)) := by
  refine ⟨fun mutationType randomSeed variant h => ?_, fun mutationTypes randomSeed variant h => ?_⟩
  · exact not_congr (applyMutation_contradictory_iff hkeys htask h)
  · rw [composeMutations] at h
    obtain ⟨⟨last, appliedTypes, result⟩, hfrom, h⟩ := except_bind_eq_ok.mp h
    obtain rfl := Except.ok.inj h
    exact composeFrom_iff hkeys htask hfrom

end Mutations

/-- On the seed task no draw collides: not that of a new total, nor those of a composition. -/
theorem mutations_not_contradictory_iff_seed :
    let _ := leastDraws
    let _ := cpython
    let _ := asciiDigits
    ¬DrawCollides "boundary_refund_amount" customerRefundWithinPolicy 7 ∧
      NoneCollides (composedSteps customerRefundWithinPolicy
        ["boundary_refund_amount", "missing_customer_information"] 7) := by
  intro _ _ _
  obtain ⟨hone, hcomposed⟩ := mutations_not_contradictory_iff wellKeyed_customerRefundWithinPolicy
    (by decide +kernel)
  have hvariant : ∃ variant, composeMutations customerRefundWithinPolicy
      ["boundary_refund_amount", "missing_customer_information"] 7 = .ok variant ∧
      NoneContradictory (composedSteps customerRefundWithinPolicy
        ["boundary_refund_amount", "missing_customer_information"] 7) variant.task := by
    unfold NoneContradictory
    decide +kernel
  obtain ⟨variant, hvariant, hnone⟩ := hvariant
  exact ⟨(hone "boundary_refund_amount" 7 _ rfl).mp (by decide +kernel),
    (hcomposed _ 7 variant hvariant).mp hnone⟩

/-- A task whose contract looks up the customer of the first decoy. -/
def addressTask : BenchmarkTask where
  taskId := "support_lookup_001"
  input := "Customer CUST-900 asks for the address on file."
  initialState := [("customers", .obj [("CUST-900", .obj [("customer_id", .str "CUST-900")])])]
  expectedActions := [⟨"customer", "get_customer", [("customer_id", .str "CUST-900")]⟩]
  forbiddenActions := []
  expectedFinalState := []
  tags := []
  difficulty := .easy

/-- **The decoy that is drawn may be the customer who asks**: the one expected action is then
forbidden. -/
theorem not_mutations_not_contradictory :
    let _ := leastDraws
    let _ := cpython
    let _ := asciiDigits
    ¬∀ task : BenchmarkTask, task.WellKeyed → ¬task.Contradictory →
      ∀ (mutationType : String) (randomSeed : ℤ) (variant : AdversarialVariant),
        applyMutation mutationType task randomSeed = .ok variant →
          ¬variant.task.Contradictory := by
  intro _ _ _ h
  refine h addressTask ⟨by decide, by decide, by decide, by decide⟩ (by decide +kernel)
    "missing_customer_information" 7 _ rfl ?_
  decide +kernel

end AgentProof
