import AgentProof.ToolEnvironment.Safety
import AgentProof.Runner.Exposure

/-!
# Runner/Raises — what an operation raises on a well-formed state

From a well-formed state an operation raises only what the proxy catches (`Operation.call_raises`),
and a call that raises leaves the state as it was (`Operation.call_error`): a ticket operation
writes more than once, but its later writes cannot fail on a well-formed ticket.
-/

open Machinery Machinery.Raising

namespace AgentProof

/-! ## The operations on values raise only `TypeError` -/

/-- Raised and then caught by the proxy. -/
abbrev Caught (e : PyError) : Prop := e.caughtByProxy = true

namespace Json

theorem inSet_caught {j : Json} {members : List String} {e : PyError}
    (h : j.inSet members = .error e) : Caught e := by
  rw [inSet] at h
  split at h
  · exact absurd h (by simp)
  · obtain rfl := Except.error.inj h
    rfl

theorem le_caught {a b : Json} {e : PyError} (h : a.le b = .error e) : Caught e := by
  rw [le] at h
  split at h
  · exact absurd h (by simp)
  · obtain rfl := Except.error.inj h
    rfl

theorem gt_caught {a b : Json} {e : PyError} (h : a.gt b = .error e) : Caught e := by
  rw [gt] at h
  split at h
  · exact absurd h (by simp)
  · obtain rfl := Except.error.inj h
    rfl

theorem setItem_caught {j key value : Json} {e : PyError} (h : j.setItem key value = .error e) :
    Caught e := by
  cases j with
  | obj fields => cases key <;> simp [setItem] at h <;> rw [← h] <;> rfl
  | _ => simp [setItem] at h; rw [← h]; rfl

theorem addOne_caught [Interpreter] {j : Json} {e : PyError} (h : j.addOne = .error e) :
    Caught e := by
  cases j <;> simp [addOne] at h <;> rw [← h] <;> rfl

theorem dictGet_obj_caught {fields : List (String × Json)} {key default : Json} {e : PyError}
    (h : (Json.obj fields).dictGet key default = .error e) : Caught e := by
  simp only [dictGet] at h
  split at h
  · cases key <;> simp at h
  · obtain rfl := Except.error.inj h
    rfl

theorem contains_obj_caught {fields : List (String × Json)} {key : Json} {e : PyError}
    (h : (Json.obj fields).contains key = .error e) : Caught e := by
  simp only [contains] at h
  split at h
  · cases key <;> simp at h
  · obtain rfl := Except.error.inj h
    rfl

theorem subscript_of_get? {fields : Dict String Json} {key : String} {v : Json}
    (h : Dict.get? fields key = some v) : (Json.obj fields).subscript key = .ok v :=
  subscript_eq_ok.mpr ⟨fields, rfl, h⟩

end Json

/-! ## Well-formed states -/

/-- A well-formed state, tickets included. -/
abbrev SupportState.SeedWellFormed (s : SupportState) : Prop := s.WellFormed TicketWellFormed

/-- **Step lemma**: an effect keeps the state well formed. -/
theorem Effect.seedWellFormed {s s' : SupportState} {a : String → Json} {op : Operation}
    (hs : s.SeedWellFormed) (h : Effect s a op s') : s'.SeedWellFormed := by
  have horders := h.orders_wellFormed hs.orders
  cases h with
  | none => exact hs
  | cancel => exact { hs with orders := horders }
  | replace => exact { hs with replacements := ⟨_, rfl⟩ }
  | refund => exact { hs with refunds := ⟨_, rfl⟩ }
  | ticket op hop htickets hid hticket hrw =>
    have htickets' := hs.tickets
    rw [htickets] at htickets'
    exact { hs with tickets := htickets'.set _ (hrw.wellFormed (htickets'.get hticket)) }

variable [Interpreter]

/-! ## What an operation raises -/

section Raises

variable {s : SupportState} {c : Collection} {what : String} {id : Json}

/-- What the operations find in a well-formed collection. -/
theorem find_ok {P : Dict String Json → Prop} (hs : (s.get c).AllEntries P) {entity : Json}
    {env : SupportToolEnvironment}
    (h : find .shared c what id { state := s } = .ok entity env) :
    env = { state := s } ∧ ∃ fields, entity = .obj fields ∧ P fields := by
  rcases find_cases .shared c what id { state := s } with ⟨e, h'⟩ |
    ⟨entities, k, entity', -, hc, rfl, hk, h'⟩
  · exact absurd (h'.symm.trans h) (by simp)
  · obtain ⟨rfl, rfl⟩ := EStateM.Result.ok.inj (h'.symm.trans h)
    obtain ⟨_, hobj, hall⟩ := hs
    obtain rfl := Json.obj.inj (hc.symm.trans hobj)
    exact ⟨rfl, hall k _ hk⟩

theorem find_raises {entities : List (String × Json)} (hc : s.get c = .obj entities) :
    RaisesOnly Caught (find .shared c what id) { state := s } := by
  refine .bind (.pure _) fun entities' s' h => ?_
  obtain ⟨rfl, rfl⟩ := EStateM.Result.ok.inj h
  rw [hc]
  refine .lift_bind (fun _ => Json.dictGet_obj_caught) fun entity _ => ?_
  split
  · exact .throw rfl
  · exact .pure _

theorem find_raises_of_allEntries {P : Dict String Json → Prop} (hs : (s.get c).AllEntries P) :
    RaisesOnly Caught (find .shared c what id) { state := s } := by
  obtain ⟨entities, hc, -⟩ := hs
  exact find_raises hc

theorem requireOwner_raises {order : Dict String Json} {owner : Json}
    (h : Dict.get? order "customer_id" = some owner) (orderId req : Json)
    (env : SupportToolEnvironment) :
    RaisesOnly Caught (requireOwner (.obj order) orderId req) env := by
  rw [requireOwner, Json.subscript_of_get? h, lift_ok_bind]
  split
  · exact .throw rfl
  · exact .pure _

theorem requireOwner_ok {order orderId req : Json} {env env' : SupportToolEnvironment} {u : Unit}
    (h : requireOwner order orderId req env = .ok u env') : env' = env := by
  rcases requireOwner_cases order orderId req env with ⟨e, h'⟩ | ⟨_, _, -, -, -, h'⟩
  · exact absurd (h'.symm.trans h) (by simp)
  · exact (EStateM.Result.ok.inj (h'.symm.trans h)).2.symm

omit [Interpreter] in
theorem deliveredWithin_caught {order : Dict String Json} (h : OrderWellFormed order) (days : ℤ)
    {e : PyError} (he : PolicyService.deliveredWithin (.obj order) days = .error e) :
    Caught e := by
  obtain ⟨status, hstatus⟩ := h.status
  obtain ⟨ago, hago⟩ := h.deliveredDaysAgo
  rw [PolicyService.deliveredWithin, Json.subscript_of_get? hstatus,
    Json.subscript_of_get? hago] at he
  simp only [bind, Except.bind] at he
  split at he
  · exact Json.le_caught he
  · exact absurd he (by simp [pure, Except.pure])

omit [Interpreter] in
theorem writeBack_raises (id entity : Json) (env : SupportToolEnvironment) :
    RaisesOnly Caught (writeBack c id entity) env := by
  intro e env' h
  simp only [writeBack] at h
  split at h <;> exact absurd h (by simp)

omit [Interpreter] in
theorem store_raises (id entity : Json) (env : SupportToolEnvironment) :
    RaisesOnly Caught (store c id entity) env := by
  intro e env' h
  simp only [store] at h
  split at h
  · exact absurd h (by simp)
  · next e' hset =>
    obtain ⟨rfl, -⟩ := EStateM.Result.error.inj h
    exact Json.setItem_caught hset

theorem checkRefundPolicy_raises (hs : s.SeedWellFormed) (orderId : Json) :
    RaisesOnly Caught (PolicyService.checkRefundPolicy ⟨.shared⟩ orderId) { state := s } := by
  refine .bind (find_raises_of_allEntries hs.orders) fun entity env h => ?_
  obtain ⟨rfl, order, rfl, horder⟩ := find_ok hs.orders h
  obtain ⟨total, htotal⟩ := horder.totalCents
  refine .lift_bind (fun e => deliveredWithin_caught horder _) fun eligible _ => ?_
  rw [Json.subscript_of_get? htotal]
  cases eligible <;> exact .pure _

theorem checkReplacementPolicy_raises (hs : s.SeedWellFormed) (orderId : Json) :
    RaisesOnly Caught (PolicyService.checkReplacementPolicy ⟨.shared⟩ orderId) { state := s } := by
  refine .bind (find_raises_of_allEntries hs.orders) fun entity env h => ?_
  obtain ⟨rfl, order, rfl, horder⟩ := find_ok hs.orders h
  exact .map (.lift fun e => deliveredWithin_caught horder _)

theorem cancelOrder_raises (hs : s.SeedWellFormed) (orderId req : Json) :
    RaisesOnly Caught (OrderService.cancelOrder ⟨.shared, .service⟩ orderId req)
      { state := s } := by
  refine .bind (find_raises_of_allEntries hs.orders) fun entity env h => ?_
  obtain ⟨rfl, order, rfl, horder⟩ := find_ok hs.orders h
  obtain ⟨owner, howner⟩ := horder.customerId
  obtain ⟨status, hstatus⟩ := horder.status
  refine .bind (requireOwner_raises howner _ _ _) fun _ env' _ => ?_
  rw [Json.subscript_of_get? hstatus, lift_ok_bind]
  refine .lift_bind (fun e => Json.inSet_caught) fun cancellable _ => ?_
  cases cancellable with
  | false => exact .throw rfl
  | true =>
    refine .lift_bind (fun e => Json.setItem_caught) fun order' _ => ?_
    exact .bind (writeBack_raises _ _ _) fun _ _ _ => .pure _

omit [Interpreter] in
/-- The items of a well-formed order all carry a sku. -/
theorem anySku_ok (sku : Json) : ∀ {items : List Json},
    (∀ item ∈ items, ∃ fields v, item = .obj fields ∧ Dict.get? fields "sku" = some v) →
    ∃ found, OrderService.anySku sku items = .ok found
  | [], _ => ⟨false, rfl⟩
  | item :: items, h => by
    obtain ⟨fields, v, rfl, hv⟩ := h item List.mem_cons_self
    obtain ⟨found, hfound⟩ := anySku_ok sku fun item hmem => h item (List.mem_cons_of_mem _ hmem)
    rw [OrderService.anySku, Json.subscript_of_get? hv]
    cases heq : v.pyEq sku with
    | true => exact ⟨true, by simp [bind, Except.bind, heq, pure, Except.pure]⟩
    | false => exact ⟨found, by simp [bind, Except.bind, heq, hfound]⟩

theorem replaceItem_raises (hs : s.SeedWellFormed) (orderId req sku reason : Json) :
    RaisesOnly Caught (OrderService.replaceItem ⟨.shared, .service⟩ orderId req sku reason)
      { state := s } := by
  refine .bind (find_raises_of_allEntries hs.orders) fun entity env h => ?_
  obtain ⟨rfl, order, rfl, horder⟩ := find_ok hs.orders h
  obtain ⟨owner, howner⟩ := horder.customerId
  obtain ⟨items, hitems, hskus⟩ := horder.items
  obtain ⟨found, hfound⟩ := anySku_ok sku hskus
  obtain ⟨replacements, hreplacements⟩ := hs.replacements
  refine .bind (requireOwner_raises howner _ _ _) fun _ env' h => ?_
  rw [Json.dictGet_obj_str, hitems, lift_ok_bind]
  rw [show (((some (Json.arr items)).getD (.arr [])).iter : Except PyError _) = .ok items from rfl,
    lift_ok_bind, hfound, lift_ok_bind]
  cases found with
  | false => exact .throw rfl
  | true =>
  obtain rfl := requireOwner_ok h
  refine .bind (.pure _) fun entities' env'' h' => ?_
  obtain ⟨rfl, rfl⟩ := EStateM.Result.ok.inj h'
  refine .lift_bind (fun _ => ?_) fun replaced _ => ?_
  · rw [show SupportState.get s .replacements = _ from hreplacements]
    exact Json.contains_obj_caught
  cases replaced with
  | true => exact .throw rfl
  | false =>
  refine .bind (checkReplacementPolicy_raises hs orderId) fun policy env' h => ?_
  rcases checkReplacementPolicy_cases ⟨.shared⟩ orderId { state := s } with ⟨e, hp⟩ |
    ⟨_, _, _, eligible, -, -, -, -, hp⟩
  · exact absurd (hp.symm.trans h) (by simp)
  obtain ⟨rfl, rfl⟩ := EStateM.Result.ok.inj (hp.symm.trans h)
  cases eligible with
  | false => exact .throw rfl
  | true =>
    exact .bind (x := store .replacements orderId (replacementRecord orderId sku reason))
      (store_raises _ _ _) fun _ _ _ => .pure _

theorem createRefund_raises (hs : s.SeedWellFormed) (orderId req amountCents reason : Json) :
    RaisesOnly Caught
      (RefundService.createRefund ⟨.shared, .service⟩ orderId req amountCents reason)
      { state := s } := by
  refine .bind (find_raises_of_allEntries hs.orders) fun entity env h => ?_
  obtain ⟨rfl, order, rfl, horder⟩ := find_ok hs.orders h
  obtain ⟨owner, howner⟩ := horder.customerId
  obtain ⟨refunds, hrefunds⟩ := hs.refunds
  refine .bind (requireOwner_raises howner _ _ _) fun _ env' h => ?_
  obtain rfl := requireOwner_ok h
  refine .bind (.pure _) fun entities' env'' h' => ?_
  obtain ⟨rfl, rfl⟩ := EStateM.Result.ok.inj h'
  refine .lift_bind (fun _ => ?_) fun refunded _ => ?_
  · rw [show SupportState.get s .refunds = _ from hrefunds]
    exact Json.contains_obj_caught
  cases refunded with
  | true => exact .throw rfl
  | false =>
  refine .bind (checkRefundPolicy_raises hs orderId) fun policy env' h => ?_
  rcases checkRefundPolicy_cases ⟨.shared⟩ orderId { state := s } with ⟨e, hp⟩ |
    ⟨_, _, _, eligible, max, -, -, -, -, -, hp⟩
  · exact absurd (hp.symm.trans h) (by simp)
  obtain ⟨rfl, rfl⟩ := EStateM.Result.ok.inj (hp.symm.trans h)
  cases eligible with
  | false => exact .throw rfl
  | true =>
  refine .lift_bind (x := amountCents.gt max) (fun e => Json.gt_caught) fun exceeds _ => ?_
  cases exceeds with
  | true => exact .throw rfl
  | false => exact .bind (store_raises _ _ _) fun _ _ _ => .pure _

omit [Interpreter] in
/-- A well-formed ticket takes a note. -/
theorem appendNote_raises {ticket : Dict String Json} (h : TicketWellFormed ticket)
    (ticketId note : Json) (env : SupportToolEnvironment) :
    RaisesOnly Caught (TicketService.appendNote ticketId (.obj ticket) note) env := by
  have happend : ∃ notes, ((Dict.get? ticket "notes").getD (.arr [])).append note = .ok notes := by
    cases hnotes : Dict.get? ticket "notes" with
    | none => exact ⟨_, rfl⟩
    | some notes =>
      obtain ⟨items, rfl⟩ := h.notes notes hnotes
      exact ⟨_, rfl⟩
  obtain ⟨notes, hnotes⟩ := happend
  rw [TicketService.appendNote, Json.setdefault_obj, lift_ok_bind, hnotes, lift_ok_bind]
  exact .lift_bind (fun e => Json.setItem_caught) fun _ _ =>
    .bind (writeBack_raises _ _ _) fun _ _ _ => .pure _

omit [Interpreter] in
theorem setField_raises (ticketId ticket : Json) (key : String) (value : Json)
    (env : SupportToolEnvironment) :
    RaisesOnly Caught (TicketService.setField ticketId ticket key value) env :=
  .lift_bind (fun _ => Json.setItem_caught) fun _ _ =>
    .bind (writeBack_raises _ _ _) fun _ _ _ => .pure _

omit [Interpreter] in
theorem setField_ok {ticketId : Json} {ticket : Dict String Json} {key : String}
    {value ticket' : Json} {env env' : SupportToolEnvironment}
    (h : TicketService.setField ticketId (.obj ticket) key value env = .ok ticket' env') :
    ticket' = .obj (Dict.set ticket key value) := by
  rw [TicketService.setField, Json.setItem_obj_str, lift_ok_bind, bind_eq_ok] at h
  obtain ⟨_, _, -, h⟩ := h
  exact (pure_eq_ok.mp h).1.symm

theorem updateTicket_raises (hs : s.SeedWellFormed) (ticketId status note : Json) :
    RaisesOnly Caught (TicketService.updateTicket ⟨.shared⟩ ticketId status note)
      { state := s } := by
  refine .bind (find_raises_of_allEntries hs.tickets) fun entity env h => ?_
  obtain ⟨rfl, ticket, rfl, hticket⟩ := find_ok hs.tickets h
  have hnote : ∀ ticket, TicketWellFormed ticket → ∀ env, RaisesOnly Caught
      (if note ≠ .null then TicketService.appendNote ticketId (.obj ticket) note
        else pure (.obj ticket)) env := by
    intro ticket hticket env
    split
    · exact appendNote_raises hticket _ _ _
    · exact .pure _
  by_cases hstatus : status = .null
  · simp only [hstatus, ne_eq, not_true_eq_false, if_false, pure_bind]
    exact hnote ticket hticket _
  · simp only [hstatus, ne_eq, not_false_eq_true, if_true]
    refine .bind (setField_raises _ _ _ _ _) fun ticket' env' h' => ?_
    obtain rfl := setField_ok h'
    exact hnote _ ((TicketRewrite.setStatus ticket status).wellFormed hticket) _

theorem escalateTicket_raises (hs : s.SeedWellFormed) (ticketId reason : Json) :
    RaisesOnly Caught (TicketService.escalateTicket ⟨.shared⟩ ticketId reason)
      { state := s } := by
  refine .bind (find_raises_of_allEntries hs.tickets) fun entity env h => ?_
  obtain ⟨rfl, ticket, rfl, hticket⟩ := find_ok hs.tickets h
  obtain ⟨status, hstatus⟩ := hticket.status
  rw [Json.subscript_of_get? hstatus, lift_ok_bind]
  refine .lift_bind (fun e => Json.inSet_caught) fun escalatable _ => ?_
  cases escalatable with
  | false => exact .throw rfl
  | true =>
    refine .bind (setField_raises ticketId (.obj ticket) "status" (.str "escalated") _)
      fun ticket' env' h' => ?_
    obtain rfl := setField_ok h'
    have hescalated :=
      (TicketRewrite.setStatus ticket (.str "escalated")).wellFormed hticket
    rw [Json.dictGet_obj_str, lift_ok_bind]
    refine .lift_bind (fun e => Json.addOne_caught) fun count hcount => ?_
    refine .bind (setField_raises _ _ _ _ _) fun ticket'' env'' h'' => ?_
    obtain rfl := setField_ok h''
    exact appendNote_raises ((TicketRewrite.setCount hcount).wellFormed hescalated) _ _ _

end Raises

/-- **From a well-formed state an operation raises only what the proxy catches.** -/
theorem Operation.call_raises {s : SupportState} (hs : s.SeedWellFormed) (op : Operation)
    (arguments : Dict String Json) :
    RaisesOnly Caught (op.call arguments) { state := s } := by
  refine .lift_bind (fun _ he => ?_) fun a _ => ?_
  · rw [bindArguments] at he
    split at he
    · obtain rfl := Except.error.inj he
      rfl
    · split at he
      · exact absurd he (by simp)
      · obtain rfl := Except.error.inj he
        rfl
  · cases op with
    | getCustomer =>
      obtain ⟨customers, hcustomers⟩ := hs.customers
      exact find_raises (c := .customers) hcustomers
    | getOrder => exact find_raises_of_allEntries hs.orders
    | cancelOrder => exact cancelOrder_raises hs _ _
    | replaceItem => exact replaceItem_raises hs _ _ _ _
    | checkRefundPolicy => exact checkRefundPolicy_raises hs _
    | checkReplacementPolicy => exact checkReplacementPolicy_raises hs _
    | createRefund => exact createRefund_raises hs _ _ _ _
    | updateTicket => exact updateTicket_raises hs _ _ _
    | escalateTicket => exact escalateTicket_raises hs _ _

/-! ## One call -/

/-- **A call that raises leaves a well-formed state as it was.** -/
theorem Operation.call_error {s : SupportState} (hs : s.SeedWellFormed) {op : Operation}
    {arguments : Dict String Json} {e : PyError} {env : SupportToolEnvironment}
    (h : op.call arguments { state := s } = .error e env) : env = { state := s } := by
  rw [Operation.call] at h
  cases hbind : bindArguments op.qualname op.signature arguments with
  | error e' =>
    rw [hbind, lift_error_bind] at h
    exact (EStateM.Result.error.inj h).2.symm
  | ok a =>
    rw [hbind, lift_ok_bind] at h
    rcases op.body_cases a { state := s } with ⟨e', h'⟩ | ⟨v, s', -, h'⟩ |
      ⟨-, tickets, k, ticket, ticket', htickets, -, hk, -, -, hok⟩
    · exact (EStateM.Result.error.inj (h.symm.trans h')).2
    · exact absurd (h'.symm.trans h) (by simp)
    · -- on a well-formed ticket every write of the operation succeeds
      have htickets' := hs.tickets
      rw [htickets] at htickets'
      obtain ⟨v, s', h'⟩ := hok (htickets'.get hk)
      exact absurd (h'.symm.trans h) (by simp)

end AgentProof
