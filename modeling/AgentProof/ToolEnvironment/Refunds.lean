import AgentProof.ToolEnvironment.Safety
import Mathlib.Algebra.BigOperators.Ring.Finset
import Mathlib.Algebra.Order.BigOperators.Group.Finset

/-!
# ToolEnvironment/Refunds — the amounts that are refunded

`create_refund` bounds an amount from above, by the order's total, and not from below.  It returns
exactly for an order that is `Refundable` (`createRefund_returns_iff`), so a refund is positive
exactly where a refundable order is asked for with a positive amount, and so are the sums over a run
(`createRefund_positive_iff`).
-/

open Machinery Machinery.Raising

namespace AgentProof

/-! ## The amounts of a state -/

namespace SupportState

/-- The total of an order, 0 where it has none. -/
def orderTotal (s : SupportState) (k : String) : ℚ :=
  (((s.orders.entry k).bind (·.entry "total_cents")).bind Json.num?).getD 0

/-- The amount refunded on an order, 0 where there is none. -/
def refundedAmount (s : SupportState) (k : String) : ℚ :=
  (((s.refunds.entry k).bind (·.entry "amount_cents")).bind Json.num?).getD 0

end SupportState

/-- The keys of an object. -/
def Json.keys : Json → List String
  | .obj fields => fields.map Prod.fst
  | _ => []

theorem Json.mem_keys_iff {j : Json} {k : String} : k ∈ j.keys ↔ (j.entry k).isSome = true := by
  cases j with
  | obj fields =>
    rw [keys, entry, Option.isSome_iff_ne_none, Ne, Dict.get?_eq_none_iff, not_not]
  | _ => simp [keys, entry]

/-- The orders that are refunded in `s` and were not in `s₀`. -/
def newlyRefunded (s₀ s : SupportState) : Finset String :=
  {k ∈ s.refunds.keys.toFinset | s₀.refunds.entry k = none}

theorem mem_newlyRefunded_iff {s₀ s : SupportState} {k : String} :
    k ∈ newlyRefunded s₀ s ↔ NewEntry s₀.refunds s.refunds k := by
  rw [newlyRefunded, Finset.mem_filter, List.mem_toFinset, Json.mem_keys_iff, and_comm, NewEntry]

/-! ## What is refundable -/

/-- **An order that may be refunded**: it is the customer's, delivered within the window, not
refunded yet, and its total is not exceeded. -/
def Refundable (s : SupportState) (orderId requestingCustomerId amountCents : Json) : Prop :=
  ∃ orders k order owner total refunds, s.orders = .obj orders ∧ orderId = .str k ∧
    Dict.get? orders k = some (.obj order) ∧ Dict.get? order "customer_id" = some owner ∧
    owner.pyEq requestingCustomerId = true ∧ Dict.get? order "total_cents" = some total ∧
    amountCents.gt total = .ok false ∧ DeliveredWithin order PolicyService.refundWindowDays ∧
    s.refunds = .obj refunds ∧ Dict.get? refunds k = none

/-- An integer is at most a number. -/
theorem Json.int_gt_eq_false_iff {j : Json} {n : ℤ} :
    (Json.int n).gt j = .ok false ↔ ∃ q, j.num? = some q ∧ (n : ℚ) ≤ q := by
  cases hj : j.num? with
  | none => simp [gt_eq_ok, lt?_int_right, number?_eq_num?, hj]
  | some q =>
    rw [Json.gt_of_num? (Json.num?.eq_2 n) hj, Except.ok.injEq, decide_eq_false_iff_not, not_lt]
    simp

/-- The amount of a refundable order is at most its total. -/
theorem Refundable.le_orderTotal {s : SupportState} {orderId requestingCustomerId : Json}
    {amount : ℤ} (h : Refundable s orderId requestingCustomerId (.int amount)) :
    ∃ k, orderId = .str k ∧ (amount : ℚ) ≤ s.orderTotal k := by
  obtain ⟨orders, k, order, owner, total, refunds, horders, rfl, horder, -, -, htotal, hamount, -⟩ :=
    h
  obtain ⟨q, hq, hle⟩ := Json.int_gt_eq_false_iff.mp hamount
  refine ⟨k, rfl, ?_⟩
  have hread : s.orders.entry k = some (.obj order) := entry_of_get? horders horder
  have htotal' : (Json.obj order).entry "total_cents" = some total := htotal
  rw [SupportState.orderTotal, hread, Option.bind_some, htotal', Option.bind_some, hq]
  exact hle

variable [Interpreter]

/-- What is stored under an id is found. -/
theorem find_eq_ok {env : SupportToolEnvironment} {c : Collection} {entities : Dict String Json}
    {k : String} {entity : Json} (hc : env.state.get c = .obj entities)
    (hk : Dict.get? entities k = some entity) (hne : entity ≠ .null) (what : String) :
    find .shared c what (.str k) env = .ok entity env := by
  have hread : readCollection .shared c env = .ok (.obj entities) env := hc ▸ rfl
  rw [find, bind_of_ok hread]
  simp [Json.dictGet, Json.hashable, hk, bind_apply, hne]

/-- **A refundable order is refunded**, by the services as the constructor wires them. -/
theorem createRefund_of_refundable {s : SupportState}
    {orderId requestingCustomerId amountCents : Json}
    (h : Refundable s orderId requestingCustomerId amountCents) (reason : Json) :
    ∃ env', RefundService.createRefund ⟨.shared, .service⟩ orderId requestingCustomerId amountCents
      reason { state := s } = .ok (refundRecord orderId amountCents reason) env' := by
  obtain ⟨orders, k, order, owner, total, refunds, horders, rfl, horder, howner, hreq, htotal,
    hamount, hwindow, hrefunds, hnew⟩ := h
  have hcollection : ({ state := s } : SupportToolEnvironment).state.get .orders = .obj orders :=
    horders
  have hfind : find .shared .orders "Order" (.str k) { state := s } =
      .ok (.obj order) { state := s } := find_eq_ok hcollection horder (by simp) "Order"
  have howned : requireOwner (.obj order) (.str k) requestingCustomerId { state := s } =
      .ok () { state := s } := by
    simp [requireOwner, Json.subscript, howner, hreq, bind_apply]
  have hread : readCollection .shared .refunds { state := s } =
      .ok (.obj refunds) { state := s } := hrefunds ▸ rfl
  have hpolicy : callPolicy .service "check_refund_policy" (·.checkRefundPolicy (.str k))
      { state := s } = .ok (.obj [("order_id", .str k), ("eligible", .bool true),
        ("max_refund_cents", total), ("reason", PolicyService.policyReason true)])
        { state := s } := by
    change PolicyService.checkRefundPolicy ⟨.shared⟩ (.str k) { state := s } = _
    rw [PolicyService.checkRefundPolicy, bind_of_ok hfind]
    simp [deliveredWithin_eq_true.mpr hwindow, Json.subscript, htotal, bind_apply, map_apply]
  have hstore : store .refunds (.str k) (.obj [("order_id", .str k), ("amount_cents", amountCents),
      ("reason", reason)]) { state := s } = .ok () (SupportToolEnvironment.put { state := s } .refunds
        (.obj (Dict.set refunds k (.obj [("order_id", .str k), ("amount_cents", amountCents),
          ("reason", reason)])))) := by
    have hget : s.get .refunds = .obj refunds := hrefunds
    simp [store, hget, Json.setItem]
  refine ⟨SupportToolEnvironment.put { state := s } .refunds (.obj (Dict.set refunds k
    (.obj [("order_id", .str k), ("amount_cents", amountCents), ("reason", reason)]))), ?_⟩
  rw [RefundService.createRefund, bind_of_ok hfind, bind_of_ok howned, bind_of_ok hread]
  simp [bind_apply, map_apply, Json.contains, Json.hashable, Dict.has, hnew, hpolicy,
    Json.subscript, Dict.get?_cons, Json.truthy, hamount, hstore, refundRecord]

/-- **`create_refund` returns exactly for a refundable order.** -/
theorem createRefund_returns_iff {s : SupportState}
    {orderId requestingCustomerId amountCents reason : Json} :
    (∃ refund env', RefundService.createRefund ⟨.shared, .service⟩ orderId requestingCustomerId
      amountCents reason { state := s } = .ok refund env') ↔
      Refundable s orderId requestingCustomerId amountCents := by
  refine ⟨fun ⟨refund, env', h⟩ => ?_, fun h => ⟨_, createRefund_of_refundable h reason⟩⟩
  rcases createRefund_cases ⟨.shared, .service⟩ orderId requestingCustomerId amountCents reason
    { state := s } with ⟨e, herror⟩ | ⟨orders, k, order, owner, total, refunds, horders, hid, horder,
      howner, hreq, htotal, hamount, hwindow, hrefunds, hnew, -⟩
  · exact absurd (h.symm.trans herror) (by simp)
  · exact ⟨orders, k, order, owner, total, refunds, horders, hid, horder, howner, hreq, htotal,
      hamount, hwindow, hrefunds, hnew⟩

/-! ## The amounts over a run -/

omit [Interpreter] in
/-- **Step lemma**: no call changes the total of an order. -/
theorem Effect.orderTotal_eq {s s' : SupportState} {a : String → Json} {op : Operation}
    (h : Effect s a op s') (k : String) : s'.orderTotal k = s.orderTotal k := by
  cases h with
  | @cancel orders k' order owner status horders hid horder howner hreq hstatus hcancellable =>
    have hread : ∀ j, j = s.orders.entry k → ((Json.obj (Dict.set orders k'
        (.obj (Dict.set order "status" (.str "cancelled"))))).entry k).bind
        (·.entry "total_cents") = j.bind (·.entry "total_cents") := by
      rintro _ rfl
      rw [entry_obj_set, horders]
      split_ifs with hk
      · subst hk
        have hbefore : (Json.obj orders).entry k' = some (.obj order) := horder
        rw [hbefore, Option.bind_some, Option.bind_some]
        exact Dict.get?_set_of_ne order (by decide) _
      · rfl
    exact congrArg (fun j => (Option.bind j Json.num?).getD 0) (hread _ rfl)
  | _ => rfl

/-- Every refund that is new is of a positive amount, of at most the total of its order. -/
def AmountsInRange (s₀ s : SupportState) : Prop :=
  ∀ k, NewEntry s₀.refunds s.refunds k →
    0 < s.refundedAmount k ∧ s.refundedAmount k ≤ s.orderTotal k

omit [Interpreter] in
/-- **Step lemma**: a call whose refund is positive leaves the new refunds in range. -/
theorem AmountsInRange.step {s₀ s s' : SupportState} (hrange : AmountsInRange s₀ s)
    {a : String → Json} {op : Operation} (h : Effect s a op s')
    (hpositive : op = .createRefund → ∃ amount : ℤ, a "amount_cents" = .int amount ∧
      (Refundable s (a "order_id") (a "requesting_customer_id") (.int amount) → 0 < amount)) :
    AmountsInRange s₀ s' := by
  have hsame : s'.refunds = s.refunds → AmountsInRange s₀ s' := by
    intro hrefunds k hnew
    rw [SupportState.refundedAmount, hrefunds, h.orderTotal_eq]
    exact hrange k (hrefunds ▸ hnew)
  have htotal := h.orderTotal_eq
  cases h with
  | @refund orders k order owner total refunds horders hid horder howner hreq hread hamount hwindow
      hrefunds hnew =>
    obtain ⟨amount, hint, hpositive⟩ := hpositive rfl
    rw [hint] at hamount
    have hrefundable : Refundable s (a "order_id") (a "requesting_customer_id") (.int amount) :=
      ⟨orders, k, order, owner, total, refunds, horders, hid, horder, howner, hreq, hread, hamount,
        hwindow, hrefunds, hnew⟩
    obtain ⟨k', hid', hle⟩ := hrefundable.le_orderTotal
    obtain rfl := Json.str.inj (hid.symm.trans hid')
    intro k' hnew'
    rw [htotal]
    by_cases hk : k = k'
    · subst hk
      have hrefunded : (s.put .refunds (.obj (Dict.set refunds k
          (refundRecord (a "order_id") (a "amount_cents") (a "reason"))))).refundedAmount k =
            amount := by
        change (((Json.obj (Dict.set refunds k _)).entry k).bind _ |>.bind _).getD 0 = _
        rw [entry_obj_set, if_pos rfl, hint]
        rfl
      rw [hrefunded]
      exact ⟨by exact_mod_cast hpositive hrefundable, hle⟩
    · have hentry : (Json.obj (Dict.set refunds k
          (refundRecord (a "order_id") (a "amount_cents") (a "reason")))).entry k' =
            s.refunds.entry k' := by
        rw [entry_obj_set, if_neg hk, hrefunds]
      have hnew : NewEntry s₀.refunds s.refunds k' := ⟨hnew'.1, hentry ▸ hnew'.2⟩
      have hrefunded : (s.put .refunds (.obj (Dict.set refunds k
          (refundRecord (a "order_id") (a "amount_cents") (a "reason"))))).refundedAmount k' =
            s.refundedAmount k' :=
        congrArg (fun j : Option Json =>
          ((j.bind fun refund => refund.entry "amount_cents").bind Json.num?).getD 0) hentry
      rw [hrefunded]
      exact hrange k' hnew
  | _ => exact hsame rfl

/-- Every refund a run asks for has an integer amount, a positive one where the order is
refundable. -/
def PositiveRefunds (calls : List Call) (env : SupportToolEnvironment) : Prop :=
  ∀ before call after, calls = before ++ call :: after → call.operation = .createRefund →
    ∃ amount : ℤ, call.arg "amount_cents" = .int amount ∧
      (Refundable (runCalls before env).state (call.arg "order_id")
        (call.arg "requesting_customer_id") (.int amount) → 0 < amount)

theorem runCalls_append_singleton (calls : List Call) (call : Call)
    (env : SupportToolEnvironment) : runCalls (calls ++ [call]) env =
      stateOf (call.operation.call call.arguments (runCalls calls env)) := by
  rw [runCalls, List.foldl_append]
  rfl

/-- **Run lemma**: a run that asks for positive refunds records only such. -/
theorem PositiveRefunds.amountsInRange {calls : List Call} {env : SupportToolEnvironment}
    (h : PositiveRefunds calls env) : AmountsInRange env.state (runCalls calls env).state := by
  induction calls using List.reverseRecOn with
  | nil =>
    rintro k ⟨hnone, hsome⟩
    have hsome' : (env.state.refunds.entry k).isSome = true := hsome
    rw [hnone] at hsome'
    exact absurd hsome' Bool.false_ne_true
  | append_singleton calls call ih =>
    have hbefore : PositiveRefunds calls env := by
      rintro before call' after rfl
      exact h before call' (after ++ [call]) (by simp)
    obtain ⟨s, heffect, hstep⟩ :=
      call.operation.call_effect call.arguments (runCalls calls env)
    rw [runCalls_append_singleton, hstep]
    exact (ih hbefore).step heffect (h calls call [] rfl)

/-- The services stay wired as the constructor wires them. -/
theorem runCalls_wired (calls : List Call) (s : SupportState) :
    runCalls calls { state := s } = { state := (runCalls calls { state := s }).state } := by
  induction calls using List.reverseRecOn with
  | nil => rfl
  | append_singleton calls call ih =>
    obtain ⟨s', -, hstep⟩ :=
      call.operation.call_effect call.arguments (runCalls calls { state := s })
    rw [runCalls_append_singleton, hstep]
    rw [ih]

/-- **Every refund is of a real amount, exactly where none is asked for that is not positive.**  In
every state that a run reaches, `create_refund` records only amounts above 0 and at most the order's
total exactly if no refundable order is asked for with another amount.  Over a run where none is,
each order that is newly refunded is so with such an amount, and the sums compare in the same way. -/
theorem createRefund_positive_iff (initialState : Dict String Json) (calls : List Call) :
    (∀ orderId requestingCustomerId reason (amount : ℤ),
      (∀ refund env',
        (runCalls calls (.new initialState)).refund.createRefund orderId requestingCustomerId
          (.int amount) reason (runCalls calls (.new initialState)) = .ok refund env' →
        0 < amount ∧ ∃ k, orderId = .str k ∧
          (amount : ℚ) ≤ (runCalls calls (.new initialState)).state.orderTotal k) ↔
      (Refundable (runCalls calls (.new initialState)).state orderId requestingCustomerId
        (.int amount) → 0 < amount)) ∧
    (PositiveRefunds calls (.new initialState) →
      let s₀ := (SupportToolEnvironment.new initialState).state
      let s := (runCalls calls (.new initialState)).state
      (∀ k, NewEntry s₀.refunds s.refunds k →
        0 < s.refundedAmount k ∧ s.refundedAmount k ≤ s.orderTotal k) ∧
      ((newlyRefunded s₀ s).Nonempty → 0 < ∑ k ∈ newlyRefunded s₀ s, s.refundedAmount k) ∧
      ∑ k ∈ newlyRefunded s₀ s, s.refundedAmount k ≤ ∑ k ∈ newlyRefunded s₀ s, s.orderTotal k) := by
  refine ⟨fun orderId requestingCustomerId reason amount => ?_, fun hpositive => ?_⟩
  · have hwired := runCalls_wired calls (.fromMapping initialState)
    rw [SupportToolEnvironment.new, hwired]
    constructor
    · intro h hrefundable
      obtain ⟨env', hreturns⟩ := createRefund_of_refundable hrefundable reason
      exact (h _ env' hreturns).1
    · intro h refund env' hreturns
      have hrefundable := createRefund_returns_iff.mp ⟨refund, env', hreturns⟩
      exact ⟨h hrefundable, hrefundable.le_orderTotal⟩
  · have hrange := hpositive.amountsInRange
    refine ⟨hrange, fun hne => ?_, ?_⟩
    · exact Finset.sum_pos (fun k hk => (hrange k (mem_newlyRefunded_iff.mp hk)).1) hne
    · exact Finset.sum_le_sum fun k hk => (hrange k (mem_newlyRefunded_iff.mp hk)).2

omit [Interpreter] in
/-- **A refund of less than nothing** is recorded. -/
theorem not_createRefund_positive :
    let _ := cpython
    ¬ ∀ (initialState : Dict String Json) (calls : List Call)
      (orderId requestingCustomerId reason : Json) (amount : ℤ) (refund : Json)
      (env' : SupportToolEnvironment),
      (runCalls calls (.new initialState)).refund.createRefund orderId requestingCustomerId
        (.int amount) reason (runCalls calls (.new initialState)) = .ok refund env' →
      0 < amount ∧ ∃ k, orderId = .str k ∧
        (amount : ℚ) ≤ (runCalls calls (.new initialState)).state.orderTotal k := by
  intro _ h
  have hreturned : returned (RefundService.createRefund ⟨.shared, .service⟩ (.str "ORD-1001")
      (.str "CUST-001") (.int (-500)) (.str "damaged")
      (.new customerRefundWithinPolicy.initialState)) = true := by
    decide +kernel
  cases hrun : RefundService.createRefund ⟨.shared, .service⟩ (.str "ORD-1001") (.str "CUST-001")
      (.int (-500)) (.str "damaged") (.new customerRefundWithinPolicy.initialState) with
  | error e env' => rw [hrun] at hreturned; exact absurd hreturned Bool.false_ne_true
  | ok refund env' =>
    have hpositive := (h customerRefundWithinPolicy.initialState [] _ _ _ _ refund env' hrun).1
    exact absurd hpositive (by decide)

end AgentProof
