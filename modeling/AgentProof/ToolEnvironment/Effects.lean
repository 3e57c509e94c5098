import AgentProof.ToolEnvironment.Outcomes

/-!
# ToolEnvironment/Effects — the abstract environment

`Effect` says what a call can do to the state: leave it alone, cancel an order, record a
replacement or a refund, or rewrite one ticket, each under its guard.  `Operation.call_effect` says
that the services do nothing else, whatever the wiring, the state and the arguments, so an invariant
of the environment is proved of `Effect`.
-/

open Machinery Machinery.Raising

namespace AgentProof

variable [Interpreter] {F : Type} [DecidableEq F] [Floats F]

/-- What one operation on bound arguments can do to the state. -/
inductive Effect (s : SupportState F) (a : String → Json F) : Operation → SupportState F →
    Prop where
  | none (op : Operation) : Effect s a op s
  | cancel {orders : Dict String (Json F)} {k : String} {order : Dict String (Json F)}
      {owner : Json F}
      {status : String} (horders : s.orders = .obj orders) (hid : a "order_id" = .str k)
      (horder : Dict.get? orders k = some (.obj order))
      (howner : Dict.get? order "customer_id" = some owner)
      (hreq : owner.pyEq (a "requesting_customer_id") = true)
      (hstatus : Dict.get? order "status" = some (.str status))
      (hcancellable : status ∈ OrderService.cancellableStatuses) :
      Effect s a .cancelOrder
        (s.put .orders
          (.obj (Dict.set orders k (.obj (Dict.set order "status" (.str "cancelled"))))))
  | replace {orders : Dict String (Json F)} {k : String} {order : Dict String (Json F)}
      {owner : Json F}
      {items : List (Json F)} {replacements : Dict String (Json F)}
      (horders : s.orders = .obj orders)
      (hid : a "order_id" = .str k) (horder : Dict.get? orders k = some (.obj order))
      (howner : Dict.get? order "customer_id" = some owner)
      (hreq : owner.pyEq (a "requesting_customer_id") = true)
      (hitems : orderItems order = .ok items)
      (hsku : OrderService.anySku (a "sku") items = .ok true)
      (hwindow : DeliveredWithin order PolicyService.replacementWindowDays)
      (hreplacements : s.replacements = .obj replacements)
      (hnew : Dict.get? replacements k = Option.none) :
      Effect s a .replaceItem
        (s.put .replacements
          (.obj (Dict.set replacements k
            (replacementRecord (a "order_id") (a "sku") (a "reason")))))
  | refund {orders : Dict String (Json F)} {k : String} {order : Dict String (Json F)}
      {owner total : Json F}
      {refunds : Dict String (Json F)} (horders : s.orders = .obj orders)
      (hid : a "order_id" = .str k) (horder : Dict.get? orders k = some (.obj order))
      (howner : Dict.get? order "customer_id" = some owner)
      (hreq : owner.pyEq (a "requesting_customer_id") = true)
      (htotal : Dict.get? order "total_cents" = some total)
      (hamount : (a "amount_cents").gt total = .ok false)
      (hwindow : DeliveredWithin order PolicyService.refundWindowDays)
      (hrefunds : s.refunds = .obj refunds) (hnew : Dict.get? refunds k = Option.none) :
      Effect s a .createRefund
        (s.put .refunds
          (.obj (Dict.set refunds k
            (refundRecord (a "order_id") (a "amount_cents") (a "reason")))))
  | ticket {tickets : Dict String (Json F)} {k : String} {ticket ticket' : Dict String (Json F)}
      (op : Operation) (hop : op = .updateTicket ∨ op = .escalateTicket)
      (htickets : s.tickets = .obj tickets) (hid : a "ticket_id" = .str k)
      (hticket : Dict.get? tickets k = some (.obj ticket)) (h : TicketRewrite ticket ticket') :
      Effect s a op (s.put .tickets (.obj (Dict.set tickets k (.obj ticket'))))

omit [Interpreter] in
/-- A read-only operation has no effect. -/
theorem Effect.eq_of_readOnly {s s' : SupportState F} {a : String → Json F} {op : Operation}
    (h : Effect s a op s') (hop : op.readOnly = true) : s' = s := by
  cases h with
  | none => rfl
  | ticket op h => rcases h with rfl | rfl <;> exact absurd hop (by decide)
  | _ => exact absurd hop (by decide)

/-- **What an operation does, whatever the environment and the arguments**: it raises and changes
nothing, it returns with one of the effects, or it rewrites a ticket. -/
theorem Operation.body_cases (op : Operation) (a : String → Json F)
    (env : SupportToolEnvironment F) :
    (∃ e, op.body a env = .error e env) ∨
    (∃ v s, Effect env.state a op s ∧ op.body a env = .ok v { env with state := s }) ∨
    (op = .updateTicket ∨ op = .escalateTicket) ∧
      RewritesTicket (a "ticket_id") env (op.body a env) := by
  cases op with
  | getCustomer =>
    rcases find_cases env.customer.state .customers "Customer" (a "customer_id") env with
      h | ⟨_, _, v, -, -, -, -, h⟩
    · exact .inl h
    · exact .inr (.inl ⟨v, _, .none .getCustomer, h⟩)
  | getOrder =>
    rcases find_cases env.order.state .orders "Order" (a "order_id") env with
      h | ⟨_, _, v, -, -, -, -, h⟩
    · exact .inl h
    · exact .inr (.inl ⟨v, _, .none .getOrder, h⟩)
  | checkRefundPolicy =>
    rcases checkRefundPolicy_cases env.policy (a "order_id") env with
      h | ⟨_, _, _, _, _, -, -, -, -, -, h⟩
    · exact .inl h
    · exact .inr (.inl ⟨_, _, .none .checkRefundPolicy, h⟩)
  | checkReplacementPolicy =>
    rcases checkReplacementPolicy_cases env.policy (a "order_id") env with
      h | ⟨_, _, _, _, -, -, -, -, h⟩
    · exact .inl h
    · exact .inr (.inl ⟨_, _, .none .checkReplacementPolicy, h⟩)
  | cancelOrder =>
    rcases cancelOrder_cases env.order (a "order_id") (a "requesting_customer_id") env with
      h | ⟨_, _, _, _, _, horders, hid, horder, howner, hreq, hstatus, hin, h⟩
    · exact .inl h
    · exact .inr (.inl ⟨_, _, .cancel horders hid horder howner hreq hstatus hin, h⟩)
  | replaceItem =>
    rcases replaceItem_cases env.order (a "order_id") (a "requesting_customer_id") (a "sku")
      (a "reason") env with
      h | ⟨_, _, _, _, _, _, horders, hid, horder, howner, hreq, hitems, hsku, hwindow, hrep, hnew,
        h⟩
    · exact .inl h
    · exact .inr (.inl ⟨_, _, .replace horders hid horder howner hreq hitems hsku hwindow hrep hnew,
        h⟩)
  | createRefund =>
    rcases createRefund_cases env.refund (a "order_id") (a "requesting_customer_id")
      (a "amount_cents") (a "reason") env with
      h | ⟨_, _, _, _, _, _, horders, hid, horder, howner, hreq, htotal, hamount, hwindow, hrefunds,
        hnew, h⟩
    · exact .inl h
    · exact .inr (.inl ⟨_, _,
        .refund horders hid horder howner hreq htotal hamount hwindow hrefunds hnew, h⟩)
  | updateTicket =>
    rcases updateTicket_cases env.ticket (a "ticket_id") (a "status") (a "note") env with
      h | ⟨v, h⟩ | h
    · exact .inl h
    · exact .inr (.inl ⟨v, _, .none .updateTicket, h⟩)
    · exact .inr (.inr ⟨.inl rfl, h⟩)
  | escalateTicket =>
    rcases escalateTicket_cases env.ticket (a "ticket_id") (a "reason") env with h | h
    · exact .inl h
    · exact .inr (.inr ⟨.inr rfl, h⟩)

/-- **An operation has one of the effects**; it leaves the wiring of the services alone. -/
theorem Operation.body_effect (op : Operation) (a : String → Json F)
    (env : SupportToolEnvironment F) :
    ∃ s, Effect env.state a op s ∧ stateOf (op.body a env) = { env with state := s } := by
  rcases op.body_cases a env with ⟨e, h⟩ | ⟨v, s, heffect, h⟩ |
    ⟨hop, _, _, _, _, htickets, hid, hticket, hrewrite, h, -⟩
  · exact ⟨env.state, .none op, congrArg stateOf h⟩
  · exact ⟨s, heffect, congrArg stateOf h⟩
  · exact ⟨_, .ticket op hop htickets hid hticket hrewrite, h⟩

omit [Interpreter] [DecidableEq F] [Floats F] in
theorem bindArguments_eq_ok {function : String} {sig : Signature} {arguments : Dict String (Json F)}
    {a : String → Json F} (h : bindArguments function sig arguments = .ok a) :
    a = argument arguments := by
  rw [bindArguments] at h
  split at h
  · exact absurd h (by simp)
  · split at h
    · exact (Except.ok.inj h).symm
    · exact absurd h (by simp)

/-- **A call has one of the effects**; a call whose arguments do not bind has none. -/
theorem Operation.call_effect (op : Operation) (arguments : Dict String (Json F))
    (env : SupportToolEnvironment F) :
    ∃ s, Effect env.state (argument arguments) op s ∧
      stateOf (op.call arguments env) = { env with state := s } := by
  rw [Operation.call]
  cases h : bindArguments op.qualname op.signature arguments with
  | error e => exact ⟨env.state, .none op, rfl⟩
  | ok a =>
    obtain rfl := bindArguments_eq_ok h
    exact op.body_effect (argument arguments) env

end AgentProof
