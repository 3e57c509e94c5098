import AgentProof.Benchmark.Contradictions
import AgentProof.Benchmark.Noise
import AgentProof.ToolEnvironment.Shift

/-!
# Benchmark/Boundary — the boundary amount shifts a task coherently

`create_boundary_refund_amount_variant` adds a draw to the total of an order.  The order, the
expected refund of it, the amount that the final state is expected to record, and the guard above
the total move together (`Coherent`), and so do the runs: whatever calls are made on the task, the
calls that refund as much more on the order return and raise alike on the variant
(`createBoundary_coherent`).
-/

open Machinery Machinery.Raising

namespace AgentProof

/-! ## Sums -/

/-- **A sum with the draw**: a number is `d` more, the draw itself unless a float was rounded. -/
theorem Json.exists_shift_of_add {total sum : Json} {draw : ℤ} (h : total.add draw = .ok sum) :
    ∃ d, total.ShiftedBy d sum ∧ ((∀ x, total ≠ .float x) → d = draw) := by
  cases total with
  | bool b =>
    obtain rfl := Except.ok.inj h
    exact ⟨draw, ⟨_, rfl, by cases b <;> simp [num?]⟩, fun _ => rfl⟩
  | int n =>
    obtain rfl := Except.ok.inj h
    exact ⟨draw, ⟨n, rfl, by rw [num?, Int.cast_add]⟩, fun _ => rfl⟩
  | float x =>
    obtain rfl := Except.ok.inj h
    exact ⟨(x.add (.fin draw)).value - x.value, ⟨x.value, rfl, by rw [num?, add_sub_cancel]⟩,
      fun hfloat => absurd rfl (hfloat x)⟩
  | null | str _ | arr _ | obj _ => cases h

/-! ## The task -/

namespace BenchmarkTask

/-- The total of an order of the seeded state. -/
def orderTotal (task : BenchmarkTask) (orderId : String) : Option Json :=
  ((Dict.get? task.initialState "orders").bind (·.entry orderId)).bind (·.entry "total_cents")

/-- The refund of an order in the expected final state. -/
def finalRefund (task : BenchmarkTask) (orderId : String) : Option Json :=
  (Dict.get? task.expectedFinalState "refunds").bind (·.entry orderId)

/-- The first refund that is expected is one of the order, of an amount. -/
def ExpectsRefund (task : BenchmarkTask) (orderId : String) (amount : Json) : Prop :=
  ∃ refund, task.expectedActions.find? ExpectedAction.isRefund = some refund ∧
    getArgument refund.arguments "order_id" = .str orderId ∧
    (getArgument refund.arguments "amount_cents").pyEq amount = true

end BenchmarkTask

/-- **The variant of a task whose order has a new total.** -/
structure Coherent (task variant : BenchmarkTask) (orderId : String)
    (originalTotal newTotal : Json) : Prop where
  ofTask : task.orderTotal orderId = some originalTotal ∧ task.ExpectsRefund orderId originalTotal
  ofVariant : variant.orderTotal orderId = some newTotal ∧ variant.ExpectsRefund orderId newTotal
  /-- a refund that the final state is expected to have is of the new total -/
  finalRefund : ∀ refund, task.finalRefund orderId = some refund →
    (variant.finalRefund orderId).bind (·.entry "amount_cents") = some newTotal
  /-- the guards above the total are above the new one, and no other guard moves -/
  guards : ∃ guarded newGuarded, originalTotal.add 1 = .ok guarded ∧
    newTotal.add 1 = .ok newGuarded ∧ List.Forall₂ (fun action action' =>
      if action.guardsTotal (.str orderId) guarded then
        action' = { action with arguments := Dict.set action.arguments "amount_cents" newGuarded }
      else action' = action) task.forbiddenActions variant.forbiddenActions

theorem find?_shiftRefund {newTotal : Json} {refund : ExpectedAction} :
    ∀ {actions : List ExpectedAction}, actions.find? ExpectedAction.isRefund = some refund →
      (shiftRefund newTotal actions).find? ExpectedAction.isRefund =
        some (refund.withAmount newTotal)
  | [], h => by cases h
  | action :: actions, h => by
    rw [shiftRefund]
    by_cases haction : action.isRefund = true
    · rw [List.find?_cons_of_pos haction] at h
      obtain rfl := Option.some.inj h
      rw [if_pos haction, List.find?_cons_of_pos]
      exact haction
    · rw [List.find?_cons_of_neg haction] at h
      rw [if_neg haction, List.find?_cons_of_neg haction]
      exact find?_shiftRefund h

/-! ## The runs -/

/-- Two answers that succeed alike: the same exception, or a value each. -/
def AnsweredAlike (answer answer' : Call × Except PyError Json) : Prop :=
  ExceptRelBy Eq (fun _ _ => True) answer.2 answer'.2

/-- **Two states that are equal up to the shift** of the order's total and of the amount of a refund
that is recorded for it and was not in the initial state. -/
structure EqualUpToShift (orderId : String) (originalTotal newTotal : Json) (d : ℚ)
    (initial s t : SupportState) : Prop where
  others : ∀ c, c ≠ .orders → c ≠ .refunds → t.get c = s.get c
  order : ∃ orders order, s.orders = .obj orders ∧
    Dict.get? orders orderId = some (.obj order) ∧
    Dict.get? order "total_cents" = some originalTotal ∧
    t.orders = .obj (Dict.set orders orderId (.obj (Dict.set order "total_cents" newTotal)))
  kept : ¬NewEntry initial.refunds s.refunds orderId → t.refunds = s.refunds
  recorded : NewEntry initial.refunds s.refunds orderId → ∃ refunds refund amount amount',
    s.refunds = .obj refunds ∧ Dict.get? refunds orderId = some (.obj refund) ∧
    Dict.get? refund "amount_cents" = some amount ∧ amount.ShiftedBy d amount' ∧
    t.refunds = .obj (Dict.set refunds orderId (.obj (Dict.set refund "amount_cents" amount')))

/-- **Every run of calls moves with the total**: the calls that refund `d` more on the order are
answered alike, and leave states that are equal up to the shift. -/
def Equivariant [Interpreter] (task variant : BenchmarkTask) (orderId : String)
    (originalTotal newTotal : Json) (d : ℚ) : Prop :=
  ∀ calls calls' : List Call, List.Forall₂ (Call.ShiftedBy orderId d) calls calls' →
    List.Forall₂ AnsweredAlike (answers calls (.new task.initialState))
        (answers calls' (.new variant.initialState)) ∧
      EqualUpToShift orderId originalTotal newTotal d (.fromMapping task.initialState)
        (runCalls calls (.new task.initialState)).state
        (runCalls calls' (.new variant.initialState)).state

/-- **The shifted calls are answered alike**, and leave environments that differ by the shift. -/
theorem runCalls_shifted [Interpreter] (site : ShiftSite) {calls calls' : List Call}
    (hcalls : List.Forall₂ (Call.ShiftedBy site.orderId site.shift) calls calls')
    {env env' : SupportToolEnvironment} (h : site.Envs env env') :
    List.Forall₂ AnsweredAlike (answers calls env) (answers calls' env') ∧
      site.Envs (runCalls calls env) (runCalls calls' env') := by
  induction hcalls generalizing env env' with
  | nil => exact ⟨.nil, h⟩
  | cons hshift _ ih =>
    have hcall := site.call_shifted hshift env env' h
    obtain ⟨hanswers, henvs⟩ := ih hcall.states
    exact ⟨.cons (outcomeOf_related hcall) hanswers, henvs⟩

/-- Environments that differ by the shift have states that are equal up to it. -/
theorem equalUpToShift_of_envs {site : ShiftSite} {initial : SupportState}
    {env env' : SupportToolEnvironment}
    (hrefunded : site.refunded ↔ (initial.refunds.entry site.orderId).isSome = true)
    (h : site.Envs env env') :
    EqualUpToShift site.orderId site.originalTotal site.newTotal site.shift initial env.state
      env'.state where
  others c horders hrefunds := ((ShiftSite.shares horders hrefunds).get h).symm
  order := h.rel .orders
  kept hkept := by
    rcases ShiftSite.Refunds.same_or_recorded (h.rel .refunds) with
      ⟨hsame, -⟩ | ⟨hnot, refunds, refund, _, _, hrefunds, hrefund, -⟩
    · exact hsame
    · refine absurd ⟨?_, ?_⟩ hkept
      · exact Option.not_isSome_iff_eq_none.mp fun hsome => hnot (hrefunded.mpr hsome)
      · exact Option.isSome_iff_exists.mpr ⟨_, entry_of_get? hrefunds hrefund⟩
  recorded hnew := by
    rcases ShiftSite.Refunds.same_or_recorded (h.rel .refunds) with
      ⟨-, hrefunded' | hnone⟩ | ⟨-, hrecorded⟩
    · have hsome := hrefunded.mp hrefunded'
      rw [hnew.1] at hsome
      cases hsome
    · have hsome : (env.state.refunds.entry site.orderId).isSome = true := hnew.2
      have hnone : env.state.refunds.entry site.orderId = none := hnone
      rw [hnone] at hsome
      cases hsome
    · exact hrecorded

/-! ## The mutation -/

section Mutation

variable [RandomGenerator]

/-- What a variant whose total is shifted is made of. -/
structure Shifted (task variant : BenchmarkTask) (randomSeed : ℤ) (shift : BoundaryShift)
    (orderId : String) (orders order : Dict String Json) (originalTotal : Json) : Prop where
  id : shift.orderId = .str orderId
  readOrders : Dict.get? task.initialState "orders" = some (.obj orders)
  readOrder : Dict.get? orders orderId = some (.obj order)
  readTotal : Dict.get? order "total_cents" = some originalTotal
  refund : task.expectedActions.find? ExpectedAction.isRefund = some shift.refundAction
  refundOrder : getArgument shift.refundAction.arguments "order_id" = .str orderId
  refundAmount : (getArgument shift.refundAction.arguments "amount_cents").pyEq originalTotal = true
  newTotal : originalTotal.add (randint randomSeed [] 1 200) = .ok shift.newTotal
  guarded : originalTotal.add 1 = .ok shift.guarded
  newGuarded : shift.newTotal.add 1 = .ok shift.newGuarded
  initialState : variant.initialState = Dict.set task.initialState "orders"
    (.obj (Dict.set orders orderId (.obj (Dict.set order "total_cents" shift.newTotal))))
  expectedActions : variant.expectedActions = shiftRefund shift.newTotal task.expectedActions
  forbiddenActions : variant.forbiddenActions =
    task.forbiddenActions.map (.shiftGuard (.str orderId) shift.guarded shift.newGuarded)
  finalState : shiftFinalState task.expectedFinalState (.str orderId) shift.newTotal =
    .ok variant.expectedFinalState

theorem createBoundary_shifted {task : BenchmarkTask} {randomSeed : ℤ}
    {variant : AdversarialVariant}
    (h : createBoundaryRefundAmountVariant task randomSeed = .ok variant)
    (happlied : variant.validatorResult = true) :
    ∃ shift orderId orders order originalTotal,
      Shifted task variant.task randomSeed shift orderId orders order originalTotal := by
  rcases createBoundary_eq_ok h with
    ⟨-, rfl⟩ | ⟨shift, state, finalState, hdraw, hstate, hfinal, rfl⟩
  · cases happlied
  obtain ⟨hfind, hid, _, originalTotal, horder, htotal, hamount, hnew, hguarded, hnewGuarded⟩ :=
    drawBoundary_eq_some hdraw
  obtain ⟨orderId, orders, order, hstr, horders, hread, rfl⟩ := withField_eq_ok.mp hstate
  rw [horders, Option.getD_some, hstr] at horder
  obtain ⟨_, hkey, hread'⟩ := Json.item_obj_eq_ok.mp horder
  obtain rfl := Json.str.inj hkey
  obtain rfl := Option.some.inj (hread.symm.trans hread')
  obtain ⟨_, hobj, htotal⟩ := Json.subscript_eq_ok.mp htotal
  obtain rfl := Json.obj.inj hobj
  exact ⟨shift, orderId, orders, order, originalTotal,
    { id := hstr, readOrders := horders, readOrder := hread, readTotal := htotal, refund := hfind,
      refundOrder := hid.symm.trans hstr, refundAmount := hamount, newTotal := hnew,
      guarded := hguarded, newGuarded := hnewGuarded, initialState := rfl, expectedActions := rfl,
      forbiddenActions := by rw [← hstr]; rfl, finalState := by rw [← hstr]; exact hfinal }⟩

variable {task variant : BenchmarkTask} {randomSeed : ℤ} {shift : BoundaryShift} {orderId : String}
  {orders order : Dict String Json} {originalTotal : Json}

omit [RandomGenerator] in
/-- What the final state is expected to record for the order, if anything. -/
theorem finalRefund_shiftFinalState {newTotal refund : Json}
    (h : shiftFinalState task.expectedFinalState (.str orderId) newTotal =
      .ok variant.expectedFinalState) (hrefund : task.finalRefund orderId = some refund) :
    (variant.finalRefund orderId).bind (·.entry "amount_cents") = some newTotal := by
  rw [BenchmarkTask.finalRefund, Option.bind_eq_some_iff] at hrefund
  obtain ⟨refunds, hrefunds, hrefund⟩ := hrefund
  cases refunds with
  | obj refunds =>
    have hhas : Dict.has refunds orderId = true := Dict.has_iff.mpr ⟨refund, hrefund⟩
    rw [shiftFinalState, hrefunds, Option.getD_some, Json.contains_obj_str, hhas] at h
    obtain ⟨_, entries, entity, hk, -, -, hfinal⟩ := withField_eq_ok.mp h
    obtain rfl := Json.str.inj hk
    rw [BenchmarkTask.finalRefund, hfinal, Dict.get?_set_self, Option.bind_some, entry_obj_set,
      if_pos rfl, Option.bind_some, entry_obj_set, if_pos rfl]
  | _ => cases hrefund

/-- **The four places move together.** -/
theorem Shifted.coherent
    (h : Shifted task variant randomSeed shift orderId orders order originalTotal) :
    Coherent task variant orderId originalTotal shift.newTotal where
  ofTask := by
    refine ⟨?_, _, h.refund, h.refundOrder, h.refundAmount⟩
    rw [BenchmarkTask.orderTotal, h.readOrders, Option.bind_some, entry_of_get? rfl h.readOrder]
    exact h.readTotal
  ofVariant := by
    refine ⟨?_, _, h.expectedActions ▸ find?_shiftRefund h.refund, ?_, ?_⟩
    · rw [BenchmarkTask.orderTotal, h.initialState, Dict.get?_set_self, Option.bind_some,
        entry_obj_set, if_pos rfl, Option.bind_some, entry_obj_set, if_pos rfl]
    · rw [getArgument, Dict.get?_set_of_ne _ (by decide)]
      exact h.refundOrder
    · rw [getArgument, Dict.get?_set_self]
      exact Json.pyEq_refl _
  finalRefund _ hrefund := finalRefund_shiftFinalState h.finalState hrefund
  guards := by
    refine ⟨_, _, h.guarded, h.newGuarded, ?_⟩
    rw [h.forbiddenActions, List.forall₂_map_right_iff, List.forall₂_same]
    intro action _
    rw [ForbiddenAction.shiftGuard]
    split_ifs <;> rfl

/-- **The two fresh environments differ by the shift.** -/
theorem Shifted.envs_new {site : ShiftSite}
    (h : Shifted task variant randomSeed shift site.orderId orders order site.originalTotal)
    (hnew : site.newTotal = shift.newTotal)
    (hrefunded : site.refunded ↔
      ((SupportState.fromMapping task.initialState).refunds.entry site.orderId).isSome = true) :
    site.Envs (.new task.initialState) (.new variant.initialState) where
  wired := rfl
  wired' := rfl
  rel c := by
    change site.Rel c ((SupportState.fromMapping _).get c) ((SupportState.fromMapping _).get c)
    rw [fromMapping_get, fromMapping_get, h.initialState]
    by_cases hc : c = .orders
    · subst hc
      have horders : Dict.get? task.initialState Collection.orders.key = some (.obj orders) :=
        h.readOrders
      have hset : ∀ j, Dict.get? (Dict.set task.initialState "orders" j) Collection.orders.key =
          some j := fun j => Dict.get?_set_self _ _ _
      rw [horders, hset, ← hnew]
      exact ⟨orders, order, rfl, h.readOrder, h.readTotal, rfl⟩
    · have hne : "orders" ≠ c.key := fun hkey => hc (Collection.key_injective hkey.symm)
      rw [Dict.get?_set_of_ne _ hne, ← fromMapping_get]
      cases c with
      | orders => exact absurd rfl hc
      | refunds =>
        by_cases hsite : site.refunded
        · exact .refunded hsite (hrefunded.mp hsite)
        · refine .unrefunded hsite (Option.not_isSome_iff_eq_none.mp fun hsome => ?_)
          exact hsite (hrefunded.mpr hsome)
      | _ => rfl

/-- **The boundary amount shifts a task coherently.**  The total of an order, the expected refund of
it, the amount that the final state is expected to record for it, and the guard above the total all
move from the original to the new total, which is the original one and a draw.  With `d` for what the
new total is more — the draw, unless the total is a float and the sum was rounded — every run of
calls on the task, with `d` more refunded on the order, is answered alike on the variant, call by
call, and ends in a state that is equal up to the shift. -/
theorem createBoundary_coherent [Interpreter] {task : BenchmarkTask} {randomSeed : ℤ}
    {variant : AdversarialVariant}
    (h : createBoundaryRefundAmountVariant task randomSeed = .ok variant)
    (happlied : variant.validatorResult = true) :
    ∃ orderId originalTotal newTotal, ∃ draw : ℤ, ∃ d : ℚ, 1 ≤ draw ∧ draw ≤ 200 ∧
      originalTotal.add draw = .ok newTotal ∧ originalTotal.ShiftedBy d newTotal ∧
      ((∀ x, originalTotal ≠ .float x) → d = draw) ∧
      Coherent task variant.task orderId originalTotal newTotal ∧
      Equivariant task variant.task orderId originalTotal newTotal d := by
  obtain ⟨shift, orderId, orders, order, originalTotal, hshifted⟩ :=
    createBoundary_shifted h happlied
  obtain ⟨hlow, hhigh⟩ := randint_mem randomSeed [] (show (1 : ℤ) ≤ 200 by decide)
  obtain ⟨d, htotal, hdraw⟩ := Json.exists_shift_of_add hshifted.newTotal
  refine ⟨orderId, originalTotal, shift.newTotal, _, d, hlow, hhigh, hshifted.newTotal, htotal, hdraw,
    hshifted.coherent, fun calls calls' hcalls => ?_⟩
  let site : ShiftSite :=
    { orderId := orderId, originalTotal := originalTotal, newTotal := shift.newTotal, shift := d,
      refunded :=
        ((SupportState.fromMapping task.initialState).refunds.entry orderId).isSome = true,
      shifted := htotal }
  have hnew : site.Envs (.new task.initialState) (.new variant.task.initialState) :=
    hshifted.envs_new rfl Iff.rfl
  obtain ⟨hanswers, henvs⟩ := runCalls_shifted site hcalls hnew
  exact ⟨hanswers, equalUpToShift_of_envs Iff.rfl henvs⟩

end Mutation

/-- The seed task refunds 4200 cents on its order; a run that refunds as much and one that refunds
the new total are answered alike. -/
theorem createBoundary_coherent_seed :
    let _ := leastDraws
    let _ := cpython
    ∃ variant, createBoundaryRefundAmountVariant customerRefundWithinPolicy 7 = .ok variant ∧
      variant.task.orderTotal "ORD-1001" = some (.int 4201) ∧
      Equivariant customerRefundWithinPolicy variant.task "ORD-1001" (.int 4200) (.int 4201) 1 := by
  intro _ _
  have hvariant : ∃ variant, createBoundaryRefundAmountVariant customerRefundWithinPolicy 7 =
      .ok variant ∧ variant.validatorResult = true ∧
        variant.task.orderTotal "ORD-1001" = some (.int 4201) := ⟨_, rfl, rfl, rfl⟩
  obtain ⟨variant, hvariant, happlied, hnew⟩ := hvariant
  refine ⟨variant, hvariant, hnew, ?_⟩
  obtain ⟨orderId, originalTotal, newTotal, draw, d, -, -, hadd, -, hdraw, hcoherent, hruns⟩ :=
    createBoundary_coherent hvariant happlied
  obtain ⟨htotal, refund, hrefund, hid, -⟩ := hcoherent.ofTask
  obtain rfl := Option.some.inj (hrefund.symm.trans rfl)
  obtain rfl : "ORD-1001" = orderId := Json.str.inj hid
  obtain rfl := Option.some.inj (htotal.symm.trans rfl)
  obtain rfl := Option.some.inj (hcoherent.ofVariant.1.symm.trans hnew)
  obtain rfl : d = 1 := by
    have hsum : 4200 + draw = 4201 := Json.int.inj (Except.ok.inj hadd)
    rw [hdraw nofun, show draw = 1 by omega, Int.cast_one]
  exact hruns

/-- The seed task, over an order of 10¹⁷ cents that are a float. -/
def floatTotalTask : BenchmarkTask :=
  { customerRefundWithinPolicy with
    initialState := [("orders", .obj [("ORD-1001", .obj [("customer_id", .str "CUST-001"),
      ("status", .str "delivered"), ("total_cents", .float (.fin (10 ^ 17))),
      ("delivered_days_ago", .int 12)])])]
    expectedActions := [⟨"refund", "create_refund",
      [("order_id", .str "ORD-1001"), ("amount_cents", .float (.fin (10 ^ 17)))]⟩]
    forbiddenActions := []
    expectedFinalState := [] }

/-- **A draw may be lost in a float**: the variant is made, and its total is not a cent more. -/
theorem not_createBoundary_coherent :
    let _ := leastDraws
    ∃ variant total newTotal, createBoundaryRefundAmountVariant floatTotalTask 7 = .ok variant ∧
      variant.validatorResult = true ∧ floatTotalTask.orderTotal "ORD-1001" = some total ∧
      variant.task.orderTotal "ORD-1001" = some newTotal ∧
      ¬ ∃ d : ℚ, 1 ≤ d ∧ total.ShiftedBy d newTotal := by
  intro _
  have hvariant : ∃ variant, createBoundaryRefundAmountVariant floatTotalTask 7 = .ok variant ∧
      variant.validatorResult = true ∧
      variant.task.orderTotal "ORD-1001" = some (.float (.fin (10 ^ 17))) := by decide +kernel
  obtain ⟨variant, hvariant, happlied, hnew⟩ := hvariant
  refine ⟨variant, _, _, hvariant, happlied, rfl, hnew, ?_⟩
  rintro ⟨d, hd, q, hq, hsum⟩
  have hsame : q + d = q := Option.some.inj (hsum.symm.trans hq)
  linarith

end AgentProof
