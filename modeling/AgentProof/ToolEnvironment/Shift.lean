import AgentProof.ToolEnvironment.Safety
import AgentProof.ToolEnvironment.Shared

/-!
# ToolEnvironment/Shift — an order whose total is shifted

Two environments that differ in the total of one order.  Only the refund policy reads the total, and
only to compare it with the amount of a refund.  So where the refunds of that order ask for as much
more (`Call.ShiftedBy`), a call returns in both or raises the same exception in both
(`ShiftSite.call_shifted`), and leaves environments that differ in the total and in the amount of the
refund that was recorded.
-/

open Machinery Machinery.Raising

namespace AgentProof

/-! ## The relation -/

/-- Two numbers, the second `d` more than the first. -/
def Json.ShiftedBy (d : ℚ) (amount amount' : Json) : Prop :=
  ∃ q, amount.num? = some q ∧ amount'.num? = some (q + d)

/-- Where a total is shifted: the order, its totals before and after, by how much, and whether the
order is refunded already. -/
structure ShiftSite where
  orderId : String
  originalTotal : Json
  newTotal : Json
  shift : ℚ
  refunded : Prop
  shifted : Json.ShiftedBy shift originalTotal newTotal

namespace ShiftSite

variable (site : ShiftSite)

/-- The orders, and the orders with the new total. -/
def Orders (a b : Json) : Prop :=
  ∃ orders order, a = .obj orders ∧ Dict.get? orders site.orderId = some (.obj order) ∧
    Dict.get? order "total_cents" = some site.originalTotal ∧
    b = .obj (Dict.set orders site.orderId (.obj (Dict.set order "total_cents" site.newTotal)))

/-- The refunds: the same ones, until the order is refunded by a call. -/
inductive Refunds : Json → Json → Prop
  | refunded (h : site.refunded) {refunds : Json}
      (hentry : (refunds.entry site.orderId).isSome = true) : Refunds refunds refunds
  | unrefunded (h : ¬site.refunded) {refunds : Json}
      (hentry : refunds.entry site.orderId = none) : Refunds refunds refunds
  | recorded (h : ¬site.refunded) {refunds refund : Dict String Json} {amount amount' : Json}
      (hrefund : Dict.get? refunds site.orderId = some (.obj refund))
      (hamount : Dict.get? refund "amount_cents" = some amount)
      (hshift : amount.ShiftedBy site.shift amount') :
      Refunds (.obj refunds) (.obj (Dict.set refunds site.orderId
        (.obj (Dict.set refund "amount_cents" amount'))))

/-- What the two environments hold. -/
def Rel : Collection → Json → Json → Prop
  | .orders => site.Orders
  | .refunds => site.Refunds
  | _ => Eq

/-- **Two environments that differ by the shift.** -/
abbrev Envs (env env' : SupportToolEnvironment) : Prop := RelatedEnvs site.Rel env env'

/-- What two runs read under the id of an order. -/
inductive Order : Json → Json → Json → Prop
  | other {k : String} (h : k ≠ site.orderId) (j : Json) : Order (.str k) j j
  | shifted {order : Dict String Json}
      (htotal : Dict.get? order "total_cents" = some site.originalTotal) :
      Order (.str site.orderId) (.obj order) (.obj (Dict.set order "total_cents" site.newTotal))

variable {site}

theorem shares {c : Collection} (horders : c ≠ .orders) (hrefunds : c ≠ .refunds) :
    Shares site.Envs c := by
  refine RelatedEnvs.shares ?_
  cases c with
  | orders => exact absurd rfl horders
  | refunds => exact absurd rfl hrefunds
  | _ => rfl

/-! ## Orders -/

section Orders

variable {id a b : Json}

theorem Order.subscript (h : site.Order id a b) {k : String} (hk : k ≠ "total_cents") :
    a.subscript k = b.subscript k := by
  cases h with
  | other => rfl
  | shifted => rw [Json.subscript, Json.subscript, Dict.get?_set_of_ne _ hk.symm]

theorem Order.dictGet (h : site.Order id a b) {k : String} (hk : k ≠ "total_cents")
    (default : Json) : a.dictGet (.str k) default = b.dictGet (.str k) default := by
  cases h with
  | other => rfl
  | shifted => rw [Json.dictGet_obj_str, Json.dictGet_obj_str, Dict.get?_set_of_ne _ hk.symm]

/-- Another field is assigned. -/
theorem Order.setItem (h : site.Order id a b) {k : String} (hk : k ≠ "total_cents") (v : Json) :
    ExceptRelBy Eq (site.Order id) (a.setItem (.str k) v) (b.setItem (.str k) v) := by
  cases h with
  | other h => exact .of_ok fun r _ => .other h r
  | shifted htotal =>
    have hhas := Dict.has_iff.mpr ⟨_, htotal⟩
    rw [Json.setItem_obj_str, Json.setItem_obj_str, Dict.set_comm hk.symm hhas]
    exact .shifted ((Dict.get?_set_of_ne _ hk _).trans htotal)

theorem Order.deliveredWithin (h : site.Order id a b) (days : ℤ) :
    PolicyService.deliveredWithin a days = PolicyService.deliveredWithin b days := by
  rw [PolicyService.deliveredWithin, PolicyService.deliveredWithin,
    h.subscript (k := "status") (by decide), h.subscript (k := "delivered_days_ago") (by decide)]

/-- **What the two environments hold under an id.** -/
theorem Orders.dictGet (h : site.Orders a b) (id : Json) :
    ExceptRelBy Eq (fun v w => v = .null ∧ w = .null ∨ v ≠ .null ∧ w ≠ .null ∧ site.Order id v w)
      (a.dictGet id .null) (b.dictGet id .null) := by
  obtain ⟨orders, order, rfl, horder, htotal, rfl⟩ := h
  cases id with
  | str k =>
    rw [Json.dictGet_obj_str, Json.dictGet_obj_str]
    by_cases hk : k = site.orderId
    · subst hk
      rw [horder, Dict.get?_set_self]
      exact .inr ⟨by simp, by simp, .shifted htotal⟩
    · rw [Dict.get?_set_of_ne _ (Ne.symm hk)]
      by_cases hnull : (Dict.get? orders k).getD .null = .null
      · exact .inl ⟨hnull, hnull⟩
      · exact .inr ⟨hnull, hnull, .other hk _⟩
  | arr _ | obj _ => exact rfl
  | _ => exact .inl ⟨rfl, rfl⟩

/-- **An order that was read is written back.** -/
theorem writeBack_shifted (h : site.Order id a b) :
    RelatedBy site.Envs Eq (writeBack .orders id a) (writeBack .orders id b) fun _ _ => True := by
  intro s t hst
  obtain ⟨orders, order, hs, horder, htotal, ht⟩ := hst.rel .orders
  cases h with
  | @other k hk =>
    rw [writeBack_apply hs, writeBack_apply ht,
      Dict.set_comm (Ne.symm hk) (Dict.has_iff.mpr ⟨_, horder⟩)]
    exact ⟨trivial, hst.put ⟨_, order, rfl, (Dict.get?_set_of_ne _ hk _).trans horder, htotal, rfl⟩⟩
  | @shifted order' htotal' =>
    rw [writeBack_apply hs, writeBack_apply ht, Dict.set_set]
    refine ⟨trivial, hst.put ⟨_, order', rfl, Dict.get?_set_self _ _ _, htotal', ?_⟩⟩
    rw [Dict.set_set]

end Orders

/-! ## Refunds -/

section Refunds

variable {id a b : Json}

/-- **The ids that are refunded are the same**, and what is not was not before. -/
theorem Refunds.contains (h : site.Refunds a b) (id : Json) :
    ExceptRelBy Eq (fun r r' => r = r' ∧ (r = false → id = .str site.orderId → ¬site.refunded))
      (a.contains id) (b.contains id) := by
  cases h with
  | unrefunded h => exact .of_ok fun r _ => ⟨rfl, fun _ _ => h⟩
  | refunded h hentry =>
    refine .of_ok fun r hr => ⟨rfl, ?_⟩
    rintro rfl rfl
    cases a with
    | obj refunds =>
      rw [Json.contains_obj_str, Except.ok.injEq, Dict.has_eq_false_iff] at hr
      rw [Json.entry, hr] at hentry
      cases hentry
    | _ => cases hentry
  | recorded h hrefund =>
    rw [Json.contains_set hrefund]
    exact .of_ok fun r _ => ⟨rfl, fun _ _ => h⟩

/-- The refunds are the same, unless one is recorded that was not there. -/
theorem Refunds.same_or_recorded (h : site.Refunds a b) :
    (b = a ∧ (site.refunded ∨ a.entry site.orderId = none)) ∨
      ¬site.refunded ∧ ∃ refunds refund amount amount', a = .obj refunds ∧
        Dict.get? refunds site.orderId = some (.obj refund) ∧
        Dict.get? refund "amount_cents" = some amount ∧ amount.ShiftedBy site.shift amount' ∧
        b = .obj (Dict.set refunds site.orderId
          (.obj (Dict.set refund "amount_cents" amount'))) := by
  cases h with
  | refunded h => exact .inl ⟨rfl, .inl h⟩
  | unrefunded _ hentry => exact .inl ⟨rfl, .inr hentry⟩
  | recorded h hrefund hamount hshift =>
    exact .inr ⟨h, _, _, _, _, rfl, hrefund, hamount, hshift, rfl⟩

theorem entry_setItem_of_ne {r v : Json} {k k' : String} (h : a.setItem (.str k) v = .ok r)
    (hk : k ≠ k') : r.entry k' = a.entry k' := by
  cases a with
  | obj entries =>
    obtain rfl := Except.ok.inj h
    rw [entry_obj_set, if_neg hk]
  | _ => cases h

/-- The refund of another order is stored. -/
theorem Refunds.setItem_of_ne (h : site.Refunds a b) {k : String} (hk : k ≠ site.orderId)
    (refund : Json) :
    ExceptRelBy Eq site.Refunds (a.setItem (.str k) refund) (b.setItem (.str k) refund) := by
  cases h with
  | refunded h hentry =>
    exact .of_ok fun r hr => .refunded h (entry_setItem_of_ne hr hk ▸ hentry)
  | unrefunded h hentry =>
    exact .of_ok fun r hr => .unrefunded h ((entry_setItem_of_ne hr hk).trans hentry)
  | recorded h hrefund hamount hshift =>
    rw [Json.setItem_obj_str, Json.setItem_obj_str,
      Dict.set_comm (Ne.symm hk) (Dict.has_iff.mpr ⟨_, hrefund⟩)]
    exact .recorded h ((Dict.get?_set_of_ne _ hk _).trans hrefund) hamount hshift

/-- **The refund of the order is stored**, in an environment where it had none before. -/
theorem Refunds.setItem (h : site.Refunds a b) (hnew : ¬site.refunded)
    {refund : Dict String Json} {amount amount' : Json}
    (hamount : Dict.get? refund "amount_cents" = some amount)
    (hshift : amount.ShiftedBy site.shift amount') :
    ExceptRelBy Eq site.Refunds (a.setItem (.str site.orderId) (.obj refund))
      (b.setItem (.str site.orderId) (.obj (Dict.set refund "amount_cents" amount'))) := by
  have hset : ∀ refunds : Dict String Json, site.Refunds
      (.obj (Dict.set refunds site.orderId (.obj refund))) (.obj (Dict.set refunds site.orderId
        (.obj (Dict.set refund "amount_cents" amount')))) := fun refunds => by
    have hrecorded :=
      Refunds.recorded hnew (Dict.get?_set_self refunds site.orderId _) hamount hshift
    rwa [Dict.set_set] at hrecorded
  cases h with
  | refunded h => exact absurd h hnew
  | unrefunded =>
    cases a with
    | obj refunds => exact hset refunds
    | _ => exact rfl
  | recorded =>
    rw [Json.setItem_obj_str, Json.setItem_obj_str, Dict.set_set]
    exact hset _

end Refunds

/-! ## The operations -/

section Operations

variable [Interpreter]

theorem findOrder_shifted (site : ShiftSite) (id : Json) :
    RelatedBy site.Envs Eq (find .shared .orders "Order" id) (find .shared .orders "Order" id)
      (site.Order id) :=
  find_relatedBy "Order" fun _ _ h => h.dictGet id

theorem cancelOrder_shifted (site : ShiftSite) (id req : Json) :
    RelatedBy site.Envs Eq (OrderService.cancelOrder ⟨.shared, .service⟩ id req)
      (OrderService.cancelOrder ⟨.shared, .service⟩ id req) fun _ _ => True := by
  refine (findOrder_shifted site id).bind fun order order' h => ?_
  refine (requireOwner_relatedBy (h.subscript (by decide)) id req).bind fun _ _ _ => ?_
  rw [h.subscript (k := "status") (by decide)]
  refine .lift_same _ fun status => .lift_same _ fun cancellable => .guard Iff.rfl rfl ?_
  refine .lift_bind (h.setItem (by decide) _) fun order order' h => ?_
  exact (writeBack_shifted h).bind fun _ _ _ => .pure trivial

/-- What the refund policy reports: one and the same, but for the most that may be refunded. -/
inductive Policy (site : ShiftSite) (id : Json) : Json → Json → Prop
  | other (h : id ≠ .str site.orderId) (policy : Json) : Policy site id policy policy
  | ineligible {policy : Json} (h : policy.subscript "eligible" = .ok (.bool false)) :
      Policy site id policy policy
  | eligible (h : id = .str site.orderId) {policy policy' : Json}
      (heligible : policy.subscript "eligible" = .ok (.bool true))
      (heligible' : policy'.subscript "eligible" = .ok (.bool true))
      (hmax : policy.subscript "max_refund_cents" = .ok site.originalTotal)
      (hmax' : policy'.subscript "max_refund_cents" = .ok site.newTotal) :
      Policy site id policy policy'

theorem checkRefundPolicy_shifted (site : ShiftSite) (id : Json) :
    RelatedBy site.Envs Eq (PolicyService.checkRefundPolicy ⟨.shared⟩ id)
      (PolicyService.checkRefundPolicy ⟨.shared⟩ id) (site.Policy id) := by
  refine (findOrder_shifted site id).bind fun order order' h => ?_
  rw [h.deliveredWithin]
  refine .lift_same _ fun eligible => ?_
  cases eligible with
  | false => exact .pure (.ineligible rfl)
  | true =>
    cases h with
    | other h => exact .lift_same _ fun total => .pure (.other (fun hid => h (Json.str.inj hid)) _)
    | @shifted order htotal =>
      have htotal : (Json.obj order).subscript "total_cents" = .ok site.originalTotal :=
        Json.subscript_eq_ok.mpr ⟨_, rfl, htotal⟩
      have htotal' : (Json.obj (Dict.set order "total_cents" site.newTotal)).subscript
          "total_cents" = .ok site.newTotal :=
        Json.subscript_eq_ok.mpr ⟨_, rfl, Dict.get?_set_self _ _ _⟩
      simp only [htotal, htotal', ↓reduceIte]
      exact .pure (.eligible rfl rfl rfl rfl rfl)

theorem checkReplacementPolicy_shifted (site : ShiftSite) (id : Json) :
    RelatedBy site.Envs Eq (PolicyService.checkReplacementPolicy ⟨.shared⟩ id)
      (PolicyService.checkReplacementPolicy ⟨.shared⟩ id) Eq := by
  refine (findOrder_shifted site id).bind fun order order' h => ?_
  rw [h.deliveredWithin]
  exact .lift_same _ fun eligible => .pure rfl

omit [Interpreter] in
/-- A policy check that a wired service asks for. -/
theorem callPolicy_shifted {name : String} {method : PolicyService → Tool Json}
    {Q : Json → Json → Prop}
    (h : RelatedBy site.Envs Eq (method ⟨.shared⟩) (method ⟨.shared⟩) Q) :
    RelatedBy site.Envs Eq (callPolicy .service name method) (callPolicy .service name method) Q :=
  callPolicy_relatedBy (fun _ _ h => ⟨h.wired, h.wired'⟩) h

theorem replaceItem_shifted (site : ShiftSite) (id req sku reason : Json) :
    RelatedBy site.Envs Eq (OrderService.replaceItem ⟨.shared, .service⟩ id req sku reason)
      (OrderService.replaceItem ⟨.shared, .service⟩ id req sku reason) Eq := by
  have hreplacements : Shares site.Envs .replacements := shares (by decide) (by decide)
  refine (findOrder_shifted site id).bind fun order order' h => ?_
  refine (requireOwner_relatedBy (h.subscript (by decide)) id req).bind fun _ _ _ => ?_
  rw [h.dictGet (k := "items") (by decide)]
  refine .lift_same _ fun items => .lift_same _ fun items => .lift_same _ fun onOrder => ?_
  refine .guard Iff.rfl rfl (.bind_same hreplacements.readCollection fun replacements => ?_)
  refine .lift_same _ fun replaced => .guard Iff.rfl rfl ?_
  refine .bind_same (callPolicy_shifted (checkReplacementPolicy_shifted site id)) fun policy => ?_
  refine .lift_same _ fun eligible => .guard Iff.rfl rfl ?_
  exact (hreplacements.store id _).bind fun _ _ _ => .pure rfl

/-- The amounts that two runs ask for: as much more for the order that is shifted. -/
inductive Amounts (site : ShiftSite) (id : Json) : Json → Json → Prop
  | other (h : id ≠ .str site.orderId) (amount : Json) : Amounts site id amount amount
  | shifted (h : id = .str site.orderId) {amount amount' : Json}
      (hshift : amount.ShiftedBy site.shift amount') : Amounts site id amount amount'

omit [Interpreter] in
/-- **An amount exceeds the total exactly if the shifted amount exceeds the new one.** -/
theorem gt_shifted (site : ShiftSite) {amount amount' : Json}
    (h : amount.ShiftedBy site.shift amount') :
    ExceptRelBy Eq Eq (amount.gt site.originalTotal) (amount'.gt site.newTotal) := by
  obtain ⟨q, htotal, hnew⟩ := site.shifted
  obtain ⟨p, hamount, hamount'⟩ := h
  rw [Json.gt_of_num? hamount htotal, Json.gt_of_num? hamount' hnew]
  exact decide_eq_decide.mpr (add_lt_add_iff_right site.shift).symm

theorem createRefund_shifted (site : ShiftSite) {id amount amount' : Json}
    (hamount : site.Amounts id amount amount') (req reason : Json) :
    RelatedBy site.Envs Eq (RefundService.createRefund ⟨.shared, .service⟩ id req amount reason)
      (RefundService.createRefund ⟨.shared, .service⟩ id req amount' reason) fun _ _ => True := by
  have hrefunds : RelatedBy site.Envs Eq (readCollection .shared .refunds)
      (readCollection .shared .refunds) site.Refunds := fun _ _ hst => ⟨hst.rel .refunds, hst⟩
  refine (findOrder_shifted site id).bind fun order order' h => ?_
  refine (requireOwner_relatedBy (h.subscript (by decide)) id req).bind fun _ _ _ => ?_
  refine hrefunds.bind fun refunds refunds' hrefunds => ?_
  refine .lift_bind (hrefunds.contains id) ?_
  rintro refunded _ ⟨rfl, hcontains⟩
  refine .guard_not Iff.rfl rfl fun hrefunded => ?_
  refine (callPolicy_shifted (checkRefundPolicy_shifted site id)).bind fun policy policy' hp => ?_
  cases hp with
  | ineligible heligible =>
    rw [heligible]
    exact .ok_bind (.guard_not Iff.rfl rfl fun hne => absurd rfl hne)
  | other hid =>
    cases hamount with
    | shifted hid' => exact absurd hid' hid
    | other =>
      refine .lift_same _ fun eligible => .guard Iff.rfl rfl ?_
      refine .lift_same _ fun max => .lift_same _ fun exceeds => .guard Iff.rfl rfl ?_
      cases h with
      | shifted => exact absurd rfl hid
      | other h =>
        exact (store_relatedBy fun _ _ hab => hab.setItem_of_ne h _).bind fun _ _ _ => .pure trivial
  | eligible hid heligible heligible' hmax hmax' =>
    cases hamount with
    | other hid' => exact absurd hid hid'
    | shifted _ hshift =>
      have hnew : ¬site.refunded := hcontains (Bool.eq_false_of_not_eq_true hrefunded) hid
      rw [heligible, heligible', hmax, hmax']
      refine .ok_bind (.guard Iff.rfl rfl (.ok_bind (.lift_bind (site.gt_shifted hshift) ?_)))
      rintro exceeds _ rfl
      subst hid
      refine .guard Iff.rfl rfl (.bind (store_relatedBy ?_) fun _ _ _ => .pure trivial)
      exact fun _ _ (hab : site.Refunds _ _) => hab.setItem hnew rfl hshift

/-- **Every operation agrees with itself**, a refund of the order on the shifted amount. -/
theorem body_shifted (site : ShiftSite) (op : Operation) {a b : String → Json}
    (h : ∀ p, p ≠ "amount_cents" → b p = a p)
    (hamount : op = .createRefund →
      site.Amounts (a "order_id") (a "amount_cents") (b "amount_cents")) :
    RelatedBy site.Envs Eq (op.body a) (op.body b) fun _ _ => True := by
  intro s t hst
  have hcustomers : Shares site.Envs .customers := shares (by decide) (by decide)
  have htickets : Shares site.Envs .tickets := shares (by decide) (by decide)
  obtain ⟨hcustomer, hpolicy, horder, hrefund, hticket⟩ := hst.wired.services
  obtain ⟨hcustomer', hpolicy', horder', hrefund', hticket'⟩ := hst.wired'.services
  simp (disch := decide) only [Operation.body, hcustomer, hpolicy, horder, hrefund, hticket,
    hcustomer', hpolicy', horder', hrefund', hticket', h]
  cases op with
  | getCustomer =>
    exact (getCustomer_shared hcustomers _).mono (fun _ _ _ => trivial) s t hst
  | getOrder => exact (findOrder_shifted site _).mono (fun _ _ _ => trivial) s t hst
  | cancelOrder => exact cancelOrder_shifted site _ _ s t hst
  | replaceItem =>
    exact (replaceItem_shifted site _ _ _ _).mono (fun _ _ _ => trivial) s t hst
  | checkRefundPolicy =>
    exact (checkRefundPolicy_shifted site _).mono (fun _ _ _ => trivial) s t hst
  | checkReplacementPolicy =>
    exact (checkReplacementPolicy_shifted site _).mono (fun _ _ _ => trivial) s t hst
  | createRefund => exact createRefund_shifted site (hamount rfl) _ _ s t hst
  | updateTicket =>
    exact (updateTicket_shared htickets _ _ _).mono (fun _ _ _ => trivial) s t hst
  | escalateTicket =>
    exact (escalateTicket_shared htickets _ _).mono (fun _ _ _ => trivial) s t hst

end Operations

end ShiftSite

/-! ## Calls -/

section Calls

/-- Arguments that bind have every parameter that is required. -/
theorem has_of_bindArguments_eq_ok {function : String} {sig : Signature}
    {arguments : Dict String Json} {a : String → Json}
    (h : bindArguments function sig arguments = .ok a) {p : String} (hp : p ∈ sig.required) :
    Dict.has arguments p = true := by
  rw [bindArguments] at h
  split at h
  · cases h
  · split at h
    · rename_i hmissing
      simpa using List.filter_eq_nil_iff.mp hmissing p hp
    · cases h

/-- A keyword is refused by its name. -/
theorem badKeyword_congr (function : String) (sig : Signature) :
    ∀ {arguments arguments' : Dict String Json},
      arguments.map Prod.fst = arguments'.map Prod.fst →
      badKeyword function sig arguments = badKeyword function sig arguments'
  | [], [], _ => rfl
  | [], _ :: _, h | _ :: _, [], h => by simp at h
  | (k, _) :: arguments, (k', _) :: arguments', h => by
    simp only [List.map_cons, List.cons.injEq] at h
    obtain ⟨rfl, h⟩ := h
    rw [badKeyword, badKeyword, badKeyword_congr function sig h]

/-- **Arguments bind whatever their values are.** -/
theorem bindArguments_set (function : String) (sig : Signature) {arguments : Dict String Json}
    {k : String} (hk : Dict.has arguments k = true) (v : Json) :
    bindArguments function sig (Dict.set arguments k v) =
      (bindArguments function sig arguments).map fun _ => argument (Dict.set arguments k v) := by
  have hhas : ∀ p, Dict.has (Dict.set arguments k v) p = Dict.has arguments p := fun p => by
    by_cases hp : k = p
    · subst hp
      rw [hk, Dict.has_iff.mpr ⟨v, Dict.get?_set_self _ _ _⟩]
    · rw [Dict.has, Dict.has, Dict.get?_set_of_ne _ hp]
  rw [bindArguments, bindArguments,
    badKeyword_congr function sig (Dict.map_fst_set (h := hk) (v := v))]
  simp only [hhas]
  cases badKeyword function sig arguments with
  | some cause => rfl
  | none => cases sig.required.filter fun p => !(Dict.has arguments p) <;> rfl

/-- Two calls: one and the same, or two refunds of the order, the second of `d` more. -/
inductive Call.ShiftedBy (orderId : String) (d : ℚ) (call : Call) : Call → Prop
  | same (h : call.operation = .createRefund → Dict.has call.arguments "amount_cents" = true →
      call.arg "order_id" ≠ .str orderId) : ShiftedBy orderId d call call
  | refund (hoperation : call.operation = .createRefund) (hid : call.arg "order_id" = .str orderId)
      {amount amount' : Json} (hread : Dict.get? call.arguments "amount_cents" = some amount)
      (hshift : amount.ShiftedBy d amount') :
      ShiftedBy orderId d call
        { call with arguments := Dict.set call.arguments "amount_cents" amount' }

/-- **Two calls of a shift agree**: both return, or both raise the same exception, and leave
environments that differ by the shift again. -/
theorem ShiftSite.call_shifted [Interpreter] (site : ShiftSite) {call call' : Call}
    (h : call.ShiftedBy site.orderId site.shift call') :
    RelatedBy site.Envs Eq (call.operation.call call.arguments)
      (call'.operation.call call'.arguments) fun _ _ => True := by
  cases h with
  | same hother =>
    rw [Operation.call]
    cases hbind : bindArguments call.operation.qualname call.operation.signature call.arguments with
    | error e => exact .throw rfl
    | ok a =>
      have hhas := fun hmem => has_of_bindArguments_eq_ok hbind (p := "amount_cents") hmem
      obtain rfl := bindArguments_eq_ok hbind
      refine site.body_shifted call.operation (fun _ _ => rfl) fun hoperation => .other ?_ _
      exact hother hoperation (hhas (by simp [hoperation, Operation.signature]))
  | @refund _ hid amount amount' hread hshift =>
    rw [Operation.call, Operation.call, bindArguments_set _ _ (Dict.has_iff.mpr ⟨_, hread⟩)]
    cases hbind : bindArguments call.operation.qualname call.operation.signature call.arguments with
    | error e => exact .throw rfl
    | ok a =>
      obtain rfl := bindArguments_eq_ok hbind
      have hamount : argument call.arguments "amount_cents" = amount := by
        rw [argument, hread, Option.getD_some]
      have hamount' : argument (Dict.set call.arguments "amount_cents" amount') "amount_cents" =
          amount' := by
        rw [argument, Dict.get?_set_self, Option.getD_some]
      refine site.body_shifted call.operation (fun p hp => ?_) fun _ => ?_
      · rw [argument, argument, Dict.get?_set_of_ne _ (Ne.symm hp)]
      · rw [hamount, hamount']
        exact .shifted hid hshift

end Calls

end AgentProof
