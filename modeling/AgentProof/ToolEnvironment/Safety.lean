import AgentProof.Benchmark.Tasks
import AgentProof.ToolEnvironment.Effects

/-!
# ToolEnvironment/Safety — what no sequence of calls can do

`Safe calls s s'` relates the state a run starts in to one it reaches: customers are as they were,
nothing is removed, an order changes only by being cancelled from a cancellable status, and every
new refund or replacement was asked for by the order's own customer, within the policy — a
guarantee that holds of the order at the start and still holds at the end.

`Effect.safe` is the step lemma, over the effects of one call; `runCalls_safe` is the run.  Both ask
that no refund is requested over `NaN`, which no total is below (`runCalls_guarantee_nan`).
-/

open Machinery Machinery.Raising

namespace AgentProof

variable {F : Type}

/-! ## Entries of collections -/

namespace Json

/-- The value a collection stores under a key. -/
def entry (j : Json F) (k : String) : Option (Json F) :=
  match j with
  | .obj fields => Dict.get? fields k
  | _ => none

end Json

/-- An assignment to a collection adds its own entry. -/
theorem entry_obj_set (entities : Dict String (Json F)) (k : String) (v : Json F) (k' : String) :
    (Json.obj (Dict.set entities k v)).entry k' =
      if k = k' then some v else (Json.obj entities).entry k' :=
  Dict.get?_set entities k v k'

/-- An assignment under a new key keeps every entry. -/
theorem entry_set_of_new {entities : Dict String (Json F)} {k : String}
    (hnew : Dict.get? entities k = none) (v : Json F) {k' : String} {r : Json F}
    (h : (Json.obj entities).entry k' = some r) :
    (Json.obj (Dict.set entities k v)).entry k' = some r := by
  rw [entry_obj_set, if_neg ?_, h]
  rintro rfl
  exact absurd (hnew.symm.trans h) (by simp)

/-- An entry that an assignment adds is the assigned value. -/
theorem of_entry_set {entities : Dict String (Json F)} {k : String} {v : Json F} {k' : String}
    {r : Json F}
    (hbefore : (Json.obj entities).entry k' = none)
    (hafter : (Json.obj (Dict.set entities k v)).entry k' = some r) : k = k' ∧ v = r := by
  rw [entry_obj_set] at hafter
  by_cases hk : k = k'
  · exact ⟨hk, by simpa [hk] using hafter⟩
  · rw [if_neg hk, hbefore] at hafter
    exact absurd hafter (by simp)

/-- An order looked up in a well-formed collection. -/
theorem entry_of_get? {j : Json F} {entities : Dict String (Json F)} (hj : j = .obj entities)
    {k : String} {v : Json F} (hk : Dict.get? entities k = some v) : j.entry k = some v := by
  rw [hj]
  exact hk

/-! ## Well-formed states -/

/-- A collection of objects that all satisfy `P`. -/
def Json.AllEntries (P : Dict String (Json F) → Prop) (j : Json F) : Prop :=
  ∃ entities, j = .obj entities ∧ ∀ k entity, Dict.get? entities k = some entity →
    ∃ fields, entity = .obj fields ∧ P fields

theorem Json.AllEntries.of_forall_mem {P : Dict String (Json F) → Prop}
    {entities : Dict String (Json F)}
    (h : ∀ e ∈ entities, ∃ fields, e.2 = .obj fields ∧ P fields) :
    (Json.obj entities).AllEntries P :=
  ⟨entities, rfl, fun _ _ hk => h _ (Dict.mem_of_get?_eq_some hk)⟩

theorem Json.AllEntries.get {P : Dict String (Json F) → Prop} {entities : Dict String (Json F)}
    (h : (Json.obj entities).AllEntries P) {k : String} {fields : Dict String (Json F)}
    (hk : Dict.get? entities k = some (.obj fields)) : P fields := by
  obtain ⟨_, hobj, hall⟩ := h
  obtain rfl := Json.obj.inj hobj
  obtain ⟨_, hfields, hP⟩ := hall k _ hk
  obtain rfl := Json.obj.inj hfields
  exact hP

theorem Json.AllEntries.set {P : Dict String (Json F) → Prop} {entities : Dict String (Json F)}
    (h : (Json.obj entities).AllEntries P) (k : String) {fields : Dict String (Json F)}
    (hP : P fields) : (Json.obj (Dict.set entities k (.obj fields))).AllEntries P := by
  obtain ⟨_, hobj, hall⟩ := h
  obtain rfl := Json.obj.inj hobj
  refine ⟨_, rfl, fun k' entity hk' => ?_⟩
  rw [Dict.get?_set] at hk'
  split_ifs at hk'
  · exact ⟨fields, (Option.some.inj hk').symm, hP⟩
  · exact hall k' entity hk'

/-- An order with its standard fields. -/
structure OrderWellFormed (order : Dict String (Json F)) : Prop where
  customerId : ∃ customer, Dict.get? order "customer_id" = some customer
  status : ∃ status, Dict.get? order "status" = some status
  totalCents : ∃ total, Dict.get? order "total_cents" = some (.int total)
  deliveredDaysAgo : ∃ ago, Dict.get? order "delivered_days_ago" = some ago
  items : ∃ items, Dict.get? order "items" = some (.arr items) ∧
    ∀ item ∈ items, ∃ fields sku, item = .obj fields ∧ Dict.get? fields "sku" = some sku

/-- A ticket with a status. -/
def TicketHasStatus (ticket : Dict String (Json F)) : Prop :=
  ∃ status, Dict.get? ticket "status" = some status

/-- A well-formed state; `Ticket` says what is asked of a ticket. -/
structure SupportState.WellFormed (Ticket : Dict String (Json F) → Prop) (s : SupportState F) :
    Prop where
  customers : ∃ customers, s.customers = .obj customers
  orders : s.orders.AllEntries OrderWellFormed
  refunds : ∃ refunds, s.refunds = .obj refunds
  replacements : ∃ replacements, s.replacements = .obj replacements
  tickets : s.tickets.AllEntries Ticket

/-! ## How an order may change -/

/-- Only the status of an order changes, and only by a cancellation. -/
structure OrderChange (order order' : Dict String (Json F)) : Prop where
  frame : ∀ key, key ≠ "status" → Dict.get? order' key = Dict.get? order key
  status : Dict.get? order' "status" = Dict.get? order "status" ∨
    (∃ status ∈ OrderService.cancellableStatuses,
      Dict.get? order "status" = some (.str status)) ∧
    Dict.get? order' "status" = some (.str "cancelled")

namespace OrderChange

variable {o o' o'' : Dict String (Json F)}

theorem refl (o : Dict String (Json F)) : OrderChange o o := ⟨fun _ _ => rfl, .inl rfl⟩

/-- A cancellation. -/
theorem cancel {status : String} (h : Dict.get? o "status" = some (.str status))
    (hin : status ∈ OrderService.cancellableStatuses) :
    OrderChange o (Dict.set o "status" (.str "cancelled")) :=
  ⟨fun _ hkey => Dict.get?_set_of_ne _ (Ne.symm hkey) _,
    .inr ⟨⟨status, hin, h⟩, Dict.get?_set_self _ _ _⟩⟩

theorem trans (h : OrderChange o o') (h' : OrderChange o' o'') : OrderChange o o'' := by
  refine ⟨fun key hkey => (h'.frame key hkey).trans (h.frame key hkey), ?_⟩
  rcases h.status with heq | ⟨hin, hcancelled⟩
  · rw [← heq]
    exact h'.status
  · refine .inr ⟨hin, ?_⟩
    rcases h'.status with heq' | ⟨-, hcancelled'⟩
    · rw [heq', hcancelled]
    · exact hcancelled'

/-- **A cancellation neither makes nor unmakes a delivery.** -/
theorem deliveredWithin_iff [Floats F] (h : OrderChange o o') (days : ℤ) :
    DeliveredWithin o' days ↔ DeliveredWithin o days := by
  have hstatus : Dict.get? o' "status" = some (.str "delivered") ↔
      Dict.get? o "status" = some (.str "delivered") := by
    rcases h.status with heq | ⟨⟨status, hin, hbefore⟩, hafter⟩
    · rw [heq]
    · have hne : status ≠ "delivered" := by
        rintro rfl
        exact absurd hin (by decide)
      simp [hbefore, hafter, hne]
  rw [DeliveredWithin, DeliveredWithin, hstatus, h.frame _ (by decide)]

end OrderChange

/-- How the entry of an order may change: it stays, or the order does within `OrderChange`. -/
inductive EntryChange : Option (Json F) → Option (Json F) → Prop where
  | same (entry : Option (Json F)) : EntryChange entry entry
  | order {o o' : Dict String (Json F)} (h : OrderChange o o') :
      EntryChange (some (.obj o)) (some (.obj o'))

theorem EntryChange.trans {x y z : Option (Json F)} (h : EntryChange x y) (h' : EntryChange y z) :
    EntryChange x z := by
  cases h with
  | same => exact h'
  | order h =>
    cases h' with
    | same => exact .order h
    | order h' => exact .order (h.trans h')

/-- The order before a change that ends in an order. -/
theorem EntryChange.order_before {x : Option (Json F)} {o' : Dict String (Json F)}
    (h : EntryChange x (some (.obj o'))) : ∃ o, x = some (.obj o) ∧ OrderChange o o' := by
  cases h with
  | same => exact ⟨o', rfl, .refl o'⟩
  | order h => exact ⟨_, rfl, h⟩

/-- The order after a change that starts in an order. -/
theorem EntryChange.order_after {y : Option (Json F)} {o : Dict String (Json F)}
    (h : EntryChange (some (.obj o)) y) : ∃ o', y = some (.obj o') ∧ OrderChange o o' := by
  cases h with
  | same => exact ⟨o, rfl, .refl o⟩
  | order h => exact ⟨_, rfl, h⟩

theorem OrderWellFormed.change {o o' : Dict String (Json F)} (h : OrderWellFormed o)
    (hc : OrderChange o o') : OrderWellFormed o' where
  customerId := by rw [hc.frame _ (by decide)]; exact h.customerId
  status := by
    rcases hc.status with heq | ⟨-, hcancelled⟩
    · rw [heq]; exact h.status
    · exact ⟨_, hcancelled⟩
  totalCents := by rw [hc.frame _ (by decide)]; exact h.totalCents
  deliveredDaysAgo := by rw [hc.frame _ (by decide)]; exact h.deliveredDaysAgo
  items := by rw [hc.frame _ (by decide)]; exact h.items

/-! ## The calls of a run -/

/-- A call of a public operation. -/
structure Call (F : Type := PyFloat) where
  operation : Operation
  arguments : Dict String (Json F)

/-- The argument of a call. -/
def Call.arg (call : Call F) (parameter : String) : Json F := argument call.arguments parameter

variable [DecidableEq F] [Floats F]

/-- The call asks for no refund over `NaN`. -/
def Call.NumericRefund (call : Call F) : Prop :=
  call.operation = .createRefund → (call.arg "amount_cents").isNan = false

/-- Calls one after the other; an exception ends its call only. -/
def runCalls [Interpreter] (calls : List (Call F)) (env : SupportToolEnvironment F) :
    SupportToolEnvironment F :=
  calls.foldl (fun env call => stateOf (call.operation.call call.arguments env)) env

/-! ## The guarantee -/

/-- The call names order `k` and comes from the customer of that order. -/
structure RequestedByOwner (call : Call F) (k : String) (order : Dict String (Json F)) : Prop where
  orderId : call.arg "order_id" = .str k
  customer : ∃ owner, Dict.get? order "customer_id" = some owner ∧
    owner.pyEq (call.arg "requesting_customer_id") = true

/-- The call `call` was entitled to the refund it recorded for order `k` between `s` and `s'`. -/
structure NewRefund (s s' : SupportState F) (call : Call F) (k : String) (refund : Json F) :
    Prop where
  operation : call.operation = .createRefund
  record : refund = refundRecord (.str k) (call.arg "amount_cents") (call.arg "reason")
  order : ∃ o o', s.orders.entry k = some (.obj o) ∧ s'.orders.entry k = some (.obj o') ∧
    RequestedByOwner call k o ∧
    (∃ total, Dict.get? o "total_cents" = some (.int total) ∧
      (call.arg "amount_cents").AtMost total) ∧
    DeliveredWithin o PolicyService.refundWindowDays ∧
    DeliveredWithin o' PolicyService.refundWindowDays

/-- A list of items names a sku. -/
def NamesSku (items : List (Json F)) (sku : Json F) : Prop :=
  ∃ fields v, .obj fields ∈ items ∧ Dict.get? fields "sku" = some v ∧ v.pyEq sku = true

/-- The call `call` was entitled to the replacement it recorded for order `k` between `s` and
`s'`. -/
structure NewReplacement (s s' : SupportState F) (call : Call F) (k : String)
    (replacement : Json F) :
    Prop where
  operation : call.operation = .replaceItem
  record : replacement = replacementRecord (.str k) (call.arg "sku") (call.arg "reason")
  order : ∃ o o', s.orders.entry k = some (.obj o) ∧ s'.orders.entry k = some (.obj o') ∧
    RequestedByOwner call k o ∧
    (∃ items, Dict.get? o "items" = some (.arr items) ∧ NamesSku items (call.arg "sku")) ∧
    DeliveredWithin o PolicyService.replacementWindowDays ∧
    DeliveredWithin o' PolicyService.replacementWindowDays

/-- Every entry that one collection has, another has too. -/
def Json.EntriesKept (before after : Json F) : Prop :=
  ∀ k, (before.entry k).isSome → (after.entry k).isSome

/-- What a run of `calls` from `s` to `s'` leaves true. -/
structure Safe (calls : List (Call F)) (s s' : SupportState F) : Prop where
  customers : s'.customers = s.customers
  orders : ∀ k, EntryChange (s.orders.entry k) (s'.orders.entry k)
  refunds : ∀ k refund, s.refunds.entry k = some refund → s'.refunds.entry k = some refund
  replacements : ∀ k replacement, s.replacements.entry k = some replacement →
    s'.replacements.entry k = some replacement
  tickets : s.tickets.EntriesKept s'.tickets
  newRefund : ∀ k refund, s.refunds.entry k = none → s'.refunds.entry k = some refund →
    ∃ call ∈ calls, NewRefund s s' call k refund
  newReplacement : ∀ k replacement, s.replacements.entry k = none →
    s'.replacements.entry k = some replacement →
    ∃ call ∈ calls, NewReplacement s s' call k replacement

namespace Safe

variable {calls calls' : List (Call F)} {s t u : SupportState F}

theorem refl (calls : List (Call F)) (s : SupportState F) : Safe calls s s where
  customers := rfl
  orders k := .same _
  refunds _ _ h := h
  replacements _ _ h := h
  tickets _ h := h
  newRefund _ _ h h' := absurd (h.symm.trans h') (by simp)
  newReplacement _ _ h h' := absurd (h.symm.trans h') (by simp)

end Safe

section Moving

variable {s t u : SupportState F} {call : Call F} {k : String} {record : Json F}

theorem RequestedByOwner.before {o o' : Dict String (Json F)} (h : RequestedByOwner call k o')
    (hc : OrderChange o o') : RequestedByOwner call k o :=
  ⟨h.orderId, by rw [← hc.frame _ (by decide)]; exact h.customer⟩

/-- A refund recorded after the orders changed was due before they did. -/
theorem NewRefund.before (h : NewRefund t u call k record)
    (hc : EntryChange (s.orders.entry k) (t.orders.entry k)) : NewRefund s u call k record := by
  obtain ⟨o, o', ho, ho', hreq, htotal, hwindow, hwindow'⟩ := h.order
  obtain ⟨o₀, ho₀, hchange⟩ := (ho ▸ hc).order_before
  refine ⟨h.operation, h.record, o₀, o', ho₀, ho', hreq.before hchange, ?_,
    (hchange.deliveredWithin_iff _).mp hwindow, hwindow'⟩
  rwa [← hchange.frame _ (by decide)]

/-- A recorded refund stays due when the orders change. -/
theorem NewRefund.after (h : NewRefund s t call k record)
    (hc : EntryChange (t.orders.entry k) (u.orders.entry k)) : NewRefund s u call k record := by
  obtain ⟨o, o', ho, ho', hreq, htotal, hwindow, hwindow'⟩ := h.order
  obtain ⟨o'', ho'', hchange⟩ := (ho' ▸ hc).order_after
  exact ⟨h.operation, h.record, o, o'', ho, ho'', hreq, htotal, hwindow,
    (hchange.deliveredWithin_iff _).mpr hwindow'⟩

/-- A replacement recorded after the orders changed was due before they did. -/
theorem NewReplacement.before (h : NewReplacement t u call k record)
    (hc : EntryChange (s.orders.entry k) (t.orders.entry k)) :
    NewReplacement s u call k record := by
  obtain ⟨o, o', ho, ho', hreq, hitems, hwindow, hwindow'⟩ := h.order
  obtain ⟨o₀, ho₀, hchange⟩ := (ho ▸ hc).order_before
  refine ⟨h.operation, h.record, o₀, o', ho₀, ho', hreq.before hchange, ?_,
    (hchange.deliveredWithin_iff _).mp hwindow, hwindow'⟩
  rwa [← hchange.frame _ (by decide)]

/-- A recorded replacement stays due when the orders change. -/
theorem NewReplacement.after (h : NewReplacement s t call k record)
    (hc : EntryChange (t.orders.entry k) (u.orders.entry k)) :
    NewReplacement s u call k record := by
  obtain ⟨o, o', ho, ho', hreq, hitems, hwindow, hwindow'⟩ := h.order
  obtain ⟨o'', ho'', hchange⟩ := (ho' ▸ hc).order_after
  exact ⟨h.operation, h.record, o, o'', ho, ho'', hreq, hitems, hwindow,
    (hchange.deliveredWithin_iff _).mpr hwindow'⟩

end Moving

/-- **Safe runs compose**: what the first recorded stays due under the second, and what the second
recorded was due before the first. -/
theorem Safe.trans {calls calls' : List (Call F)} {s t u : SupportState F} (h : Safe calls s t)
    (h' : Safe calls' t u) : Safe (calls ++ calls') s u where
  customers := h'.customers.trans h.customers
  orders k := (h.orders k).trans (h'.orders k)
  refunds k refund hr := h'.refunds k refund (h.refunds k refund hr)
  replacements k replacement hr := h'.replacements k replacement (h.replacements k replacement hr)
  tickets k hk := h'.tickets k (h.tickets k hk)
  newRefund k refund hs hu := by
    cases ht : t.refunds.entry k with
    | none =>
      obtain ⟨call, hmem, hnew⟩ := h'.newRefund k refund ht hu
      exact ⟨call, List.mem_append_right _ hmem, hnew.before (h.orders k)⟩
    | some refund' =>
      obtain rfl := Option.some.inj ((h'.refunds k refund' ht).symm.trans hu)
      obtain ⟨call, hmem, hnew⟩ := h.newRefund k _ hs ht
      exact ⟨call, List.mem_append_left _ hmem, hnew.after (h'.orders k)⟩
  newReplacement k replacement hs hu := by
    cases ht : t.replacements.entry k with
    | none =>
      obtain ⟨call, hmem, hnew⟩ := h'.newReplacement k replacement ht hu
      exact ⟨call, List.mem_append_right _ hmem, hnew.before (h.orders k)⟩
    | some replacement' =>
      obtain rfl := Option.some.inj ((h'.replacements k replacement' ht).symm.trans hu)
      obtain ⟨call, hmem, hnew⟩ := h.newReplacement k _ hs ht
      exact ⟨call, List.mem_append_left _ hmem, hnew.after (h'.orders k)⟩

/-! ## One call -/

/-- The items of a well-formed order are the list it stores, and one of them carries the sku an
operation found. -/
theorem OrderWellFormed.namesSku {order : Dict String (Json F)} (h : OrderWellFormed order)
    {items : List (Json F)} (hitems : orderItems order = .ok items) {sku : Json F}
    (hsku : OrderService.anySku sku items = .ok true) :
    ∃ items, Dict.get? order "items" = some (.arr items) ∧ NamesSku items sku := by
  obtain ⟨stored, hstored, -⟩ := h.items
  rw [orderItems, hstored] at hitems
  obtain rfl : stored = items := Except.ok.inj hitems
  obtain ⟨item, hmem, v, hv, heq⟩ := exists_of_anySku hsku
  obtain ⟨fields, rfl, hget⟩ := Json.subscript_eq_ok.mp hv
  exact ⟨stored, hstored, fields, v, hmem, hget, heq⟩

/-- **Step lemma**: the effect of one call is safe. -/
theorem Effect.safe {s s' : SupportState F} (hs : s.orders.AllEntries OrderWellFormed)
    {call : Call F} (hcall : call.NumericRefund) (h : Effect s call.arg call.operation s') :
    Safe [call] s s' := by
  generalize hop : call.operation = op at h
  cases h with
  | none => exact .refl _ _
  | @cancel orders k order owner status horders hid horder howner hreq hstatus hin =>
    refine { Safe.refl [call] s with
      orders := fun k' => ?_
      newRefund := fun k' r h h' => absurd (h.symm.trans h') (by simp)
      newReplacement := fun k' r h h' => absurd (h.symm.trans h') (by simp) }
    change EntryChange _ ((Json.obj _).entry k')
    rw [entry_obj_set, ← horders]
    by_cases hk : k = k'
    · subst hk
      rw [if_pos rfl, entry_of_get? horders horder]
      exact .order (.cancel hstatus hin)
    · rw [if_neg hk]
      exact .same _
  | @replace orders k order owner items replacements horders hid horder howner hreq hitems hsku
      hwindow hreplacements hnew =>
    refine { Safe.refl [call] s with
      replacements := fun k' r hr => entry_set_of_new hnew _ (hreplacements ▸ hr)
      newRefund := fun k' r h h' => absurd (h.symm.trans h') (by simp)
      newReplacement := fun k' r h h' => ?_ }
    obtain ⟨rfl, rfl⟩ := of_entry_set (hreplacements ▸ h) h'
    have hentry := entry_of_get? horders horder
    exact ⟨call, List.mem_singleton_self _, hop, by rw [hid], order, order, hentry, hentry,
      ⟨hid, owner, howner, hreq⟩, ((horders ▸ hs).get horder).namesSku hitems hsku, hwindow,
      hwindow⟩
  | @refund orders k order owner total refunds horders hid horder howner hreq htotal hamount
      hwindow hrefunds hnew =>
    refine { Safe.refl [call] s with
      refunds := fun k' r hr => entry_set_of_new hnew _ (hrefunds ▸ hr)
      newRefund := fun k' r h h' => ?_
      newReplacement := fun k' r h h' => absurd (h.symm.trans h') (by simp) }
    obtain ⟨rfl, rfl⟩ := of_entry_set (hrefunds ▸ h) h'
    have hentry := entry_of_get? horders horder
    obtain ⟨n, hn⟩ := (Json.AllEntries.get (horders ▸ hs) horder).totalCents
    obtain rfl := Option.some.inj (htotal.symm.trans hn)
    -- what is not above the total is below it, as it is a number
    have hatMost : (call.arg "amount_cents").AtMost n :=
      (Json.gt_int_eq_false_iff.mp hamount).resolve_right (by simp [hcall hop])
    exact ⟨call, List.mem_singleton_self _, hop, by rw [hid], order, order, hentry, hentry,
      ⟨hid, owner, howner, hreq⟩, ⟨n, hn, hatMost⟩, hwindow, hwindow⟩
  | @ticket tickets k ticket ticket' op' hop' htickets hid hticket hrw =>
    refine { Safe.refl [call] s with
      tickets := fun k' hk' => ?_
      newRefund := fun k' r h h' => absurd (h.symm.trans h') (by simp)
      newReplacement := fun k' r h h' => absurd (h.symm.trans h') (by simp) }
    change ((Json.obj _).entry k').isSome
    rw [entry_obj_set, ← htickets]
    split_ifs
    · rfl
    · exact hk'

/-- **Step lemma**: the orders stay well formed. -/
theorem Effect.orders_wellFormed {s s' : SupportState F} {a : String → Json F} {op : Operation}
    (hs : s.orders.AllEntries OrderWellFormed) (h : Effect s a op s') :
    s'.orders.AllEntries OrderWellFormed := by
  cases h with
  | cancel horders hid horder howner hreq hstatus hin =>
    rw [horders] at hs
    exact hs.set _ ((hs.get horder).change (.cancel hstatus hin))
  | _ => exact hs

/-! ## A run -/

/-- **Run lemma**: a run over well-formed orders is safe. -/
theorem runCalls_safe [Interpreter] (calls : List (Call F))
    (hcalls : ∀ call ∈ calls, call.NumericRefund) :
    ∀ env : SupportToolEnvironment F, env.state.orders.AllEntries OrderWellFormed →
      Safe calls env.state (runCalls calls env).state := by
  induction calls with
  | nil => exact fun env _ => .refl [] env.state
  | cons call calls ih =>
    intro env henv
    obtain ⟨s, heffect, hstep⟩ := call.operation.call_effect call.arguments env
    have hrun : runCalls (call :: calls) env = runCalls calls { env with state := s } := by
      rw [← hstep]
      rfl
    rw [hrun]
    exact (Effect.safe henv (hcalls call (by simp)) heffect).trans
      (ih (fun call h => hcalls call (by simp [h])) { env with state := s }
        (heffect.orders_wellFormed henv))

/-- Entry `k` is not in the collection `before` but in `after`. -/
def NewEntry (before after : Json F) (k : String) : Prop :=
  before.entry k = none ∧ (after.entry k).isSome

/-- **The environment is safe over whole runs**: from a well-formed state, whatever operations are
called, in any order and with any arguments but a refund over `NaN` — and no order ends up cancelled
that the run refunded or replaced. -/
theorem runCalls_guarantee [Interpreter] {s : SupportState F} (hs : s.WellFormed TicketHasStatus)
    (calls : List (Call F)) (hcalls : ∀ call ∈ calls, call.NumericRefund) :
    Safe calls s (runCalls calls { state := s }).state ∧
    ∀ k order, (runCalls calls { state := s }).state.orders.entry k = some (.obj order) →
      Dict.get? order "status" = some (.str "cancelled") →
      ¬ NewEntry s.refunds (runCalls calls { state := s }).state.refunds k ∧
      ¬ NewEntry s.replacements (runCalls calls { state := s }).state.replacements k := by
  have hsafe : Safe calls s (runCalls calls { state := s }).state :=
    runCalls_safe calls hcalls { state := s } hs.orders
  refine ⟨hsafe, fun k order horder hcancelled => ⟨fun ⟨hnone, hsome⟩ => ?_,
    fun ⟨hnone, hsome⟩ => ?_⟩⟩
  · obtain ⟨refund, hrefund⟩ := Option.isSome_iff_exists.mp hsome
    obtain ⟨call, -, hnew⟩ := hsafe.newRefund k refund hnone hrefund
    obtain ⟨_, o', -, ho', -, -, -, hwindow⟩ := hnew.order
    obtain rfl := Json.obj.inj (Option.some.inj (horder.symm.trans ho'))
    exact absurd (hcancelled.symm.trans hwindow.1) (by simp)
  · obtain ⟨replacement, hreplacement⟩ := Option.isSome_iff_exists.mp hsome
    obtain ⟨call, -, hnew⟩ := hsafe.newReplacement k replacement hnone hreplacement
    obtain ⟨_, o', -, ho', -, -, -, hwindow⟩ := hnew.order
    obtain rfl := Json.obj.inj (Option.some.inj (horder.symm.trans ho'))
    exact absurd (hcancelled.symm.trans hwindow.1) (by simp)

/-- One order, delivered five days ago, of 42.00. -/
def deliveredOrderState : SupportState AnyFloat :=
  .fromMapping [("orders", .obj [("ORD-1001", .obj [("order_id", .str "ORD-1001"),
    ("customer_id", .str "CUST-001"), ("status", .str "delivered"), ("total_cents", .int 4200),
    ("delivered_days_ago", .int 5),
    ("items", .arr [.obj [("sku", .str "SKU-42"), ("quantity", .int 1)]])])])]

theorem deliveredOrderState_wellFormed : deliveredOrderState.WellFormed TicketHasStatus where
  customers := ⟨_, rfl⟩
  orders := .of_forall_mem fun e he => by
    obtain rfl := List.mem_singleton.mp he
    exact ⟨_, rfl, ⟨_, rfl⟩, ⟨_, rfl⟩, ⟨_, rfl⟩, ⟨_, rfl⟩, _, rfl, by
      simp only [List.mem_singleton, forall_eq]
      exact ⟨_, _, rfl, rfl⟩⟩
  refunds := ⟨_, rfl⟩
  replacements := ⟨_, rfl⟩
  tickets := .of_forall_mem fun _ he => absurd he (by simp)

/-- The customer of the order asks for a refund of it. -/
def refundCall (amountCents : Json AnyFloat) : Call AnyFloat :=
  ⟨.createRefund, [("order_id", .str "ORD-1001"), ("requesting_customer_id", .str "CUST-001"),
    ("amount_cents", amountCents), ("reason", .str "damaged")]⟩

/-- A refund of all of it, and one of an infinite amount. -/
theorem runCalls_guarantee_refund :
    Safe [refundCall (.int 4200), refundCall (.float (.inf false))] deliveredOrderState
      (@runCalls _ _ _ cpython [refundCall (.int 4200), refundCall (.float (.inf false))]
        { state := deliveredOrderState }).state :=
  (@runCalls_guarantee _ _ _ cpython _ deliveredOrderState_wellFormed _ (by
    simp [refundCall, Call.NumericRefund, Call.arg, argument, Dict.get?_cons, Json.isNan,
      Floats.any, AnyFloat.isNan])).1

/-- **A refund over `NaN` is recorded**, and it is not at most the total. -/
theorem runCalls_guarantee_nan :
    ¬ Safe [refundCall (.float (.nan 0))] deliveredOrderState
      (@runCalls _ _ _ cpython [refundCall (.float (.nan 0))]
        { state := deliveredOrderState }).state := by
  intro h
  obtain ⟨call, hmem, hnew⟩ := h.newRefund "ORD-1001"
    (refundRecord (.str "ORD-1001") (.float (.nan 0)) (.str "damaged")) (by decide)
    (by decide +kernel)
  obtain rfl := List.mem_singleton.mp hmem
  obtain ⟨_, _, -, -, -, ⟨total, -, amount, hamount, hle⟩, -, -⟩ := hnew.order
  obtain rfl : AnyFloat.nan 0 = amount := Option.some.inj hamount
  exact Bool.false_ne_true hle

/-- The state the seed task starts in. -/
def refundWithinPolicyState : SupportState :=
  .fromMapping customerRefundWithinPolicy.initialState

theorem refundWithinPolicyState_orders :
    refundWithinPolicyState.orders.AllEntries OrderWellFormed := by
  refine .of_forall_mem fun e he => ?_
  obtain rfl := List.mem_singleton.mp he
  exact ⟨_, rfl, ⟨_, rfl⟩, ⟨_, rfl⟩, ⟨_, rfl⟩, ⟨_, rfl⟩, _, rfl, by
    simp only [List.mem_singleton, forall_eq]
    exact ⟨_, _, rfl, rfl⟩⟩

theorem refundWithinPolicyState_wellFormed {Ticket : Dict String Json → Prop}
    (h : Ticket [("ticket_id", .str "TICK-9001"), ("customer_id", .str "CUST-001"),
      ("status", .str "open"), ("notes", .arr [])]) :
    refundWithinPolicyState.WellFormed Ticket where
  customers := ⟨_, rfl⟩
  orders := refundWithinPolicyState_orders
  refunds := ⟨_, rfl⟩
  replacements := ⟨_, rfl⟩
  tickets := .of_forall_mem fun e he => by
    obtain rfl := List.mem_singleton.mp he
    exact ⟨_, rfl, h⟩

end AgentProof
