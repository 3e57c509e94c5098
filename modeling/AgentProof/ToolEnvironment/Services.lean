import AgentProof.Machinery.Raising
import AgentProof.ToolEnvironment.Interpreter

/-!
# ToolEnvironment/Services — the nine public operations

Each operation is a computation over the environment that may raise; a write made before an
exception stays.  An entity is a reference into the shared state: `writeBack` stores what the source
does to it in place.  The `deepcopy` of a returned entity is the value itself.
-/

open Machinery

namespace AgentProof

/-- A computation of a service, on values with these floats. -/
abbrev ToolOf (F α : Type) : Type := EStateM (PyError F) (SupportToolEnvironment F) α

/-- A computation of a service. -/
abbrev Tool (α : Type) : Type := ToolOf PyFloat α

variable [Interpreter] {F : Type} [DecidableEq F] [Floats F]

/-! ## Reaching the state -/

/-- `self._state.<collection>`: a rewired service holds a JSON value, which has no such
attribute. -/
def readCollection (self : StateRef F) (c : Collection) : ToolOf F (Json F) := fun env =>
  match self with
  | .shared => .ok (env.state.get c) env
  | .value j => .error (.attributeError j.typeName c.key) env

/-- `self._state.<collection>[id]`, mutated in place to `entity`. -/
def writeBack (c : Collection) (id entity : Json F) : ToolOf F Unit := fun env =>
  match env.state.get c, id with
  | .obj entities, .str k => .ok () (env.put c (.obj (Dict.set entities k entity)))
  -- the entity was found under `id`, so `id` is a key of the collection
  | _, _ => .ok () env

/-- `self._state.<collection>[id] = entity` -/
def store (c : Collection) (id entity : Json F) : ToolOf F Unit := fun env =>
  match (env.state.get c).setItem id entity with
  | .ok entities => .ok () (env.put c entities)
  | .error e => .error e env

/-- The entity stored under an id, or the operation's `NotFoundError`. -/
def find (self : StateRef F) (c : Collection) (what : String) (id : Json F) :
    ToolOf F (Json F) := do
  let entities ← readCollection self c
  let entity ← entities.dictGet id .null
  if entity = .null then
    throw (.notFound s!"{what} not found: {id.format}")
  return entity

/-- The check that an order belongs to the requesting customer. -/
def requireOwner (order orderId requestingCustomerId : Json F) : ToolOf F Unit := do
  let owner ← order.subscript "customer_id"
  if !(owner.pyEq requestingCustomerId) then
    throw (.policyViolation
      s!"Order {orderId.format} does not belong to customer {requestingCustomerId.format}")

/-! ## `CustomerService` -/

def CustomerService.getCustomer (self : CustomerService F) (customerId : Json F) :
    ToolOf F (Json F) :=
  find self.state .customers "Customer" customerId

/-! ## `PolicyService` -/

namespace PolicyService

/-- `REFUND_WINDOW_DAYS` -/
def refundWindowDays : ℤ := 30

/-- `REPLACEMENT_WINDOW_DAYS` -/
def replacementWindowDays : ℤ := 30

/-- `order["status"] == "delivered" and order["delivered_days_ago"] <= days` -/
def deliveredWithin (order : Json F) (days : ℤ) : Except (PyError F) Bool := do
  let status ← order.subscript "status"
  if status.pyEq (.str "delivered") then
    let deliveredDaysAgo ← order.subscript "delivered_days_ago"
    deliveredDaysAgo.le (.int days)
  else
    return false

/-- The `reason` both checks report. -/
def policyReason (eligible : Bool) : Json F :=
  .str (if eligible then "within_window" else "outside_policy")

def checkRefundPolicy (self : PolicyService F) (orderId : Json F) : ToolOf F (Json F) := do
  let order ← find self.state .orders "Order" orderId
  let eligible ← deliveredWithin order refundWindowDays
  let maxRefundCents ← if eligible then order.subscript "total_cents" else pure (.int 0)
  return .obj [("order_id", orderId), ("eligible", .bool eligible),
    ("max_refund_cents", maxRefundCents), ("reason", policyReason eligible)]

def checkReplacementPolicy (self : PolicyService F) (orderId : Json F) : ToolOf F (Json F) := do
  let order ← find self.state .orders "Order" orderId
  let eligible ← deliveredWithin order replacementWindowDays
  return .obj [("order_id", orderId), ("eligible", .bool eligible),
    ("reason", policyReason eligible)]

end PolicyService

/-- `self._policy_service.<method>`: the policy service of the environment, unless rewired. -/
def callPolicy (ref : PolicyRef F) (name : String) (method : PolicyService F → ToolOf F (Json F)) :
    ToolOf F (Json F) := fun env =>
  match ref with
  | .service => method env.policy env
  | .value j => .error (.attributeError j.typeName name) env

/-! ## `OrderService` -/

namespace OrderService

/-- `CANCELLABLE_STATUSES` -/
def cancellableStatuses : List String := ["placed", "processing", "shipped"]

def getOrder (self : OrderService F) (orderId : Json F) : ToolOf F (Json F) :=
  find self.state .orders "Order" orderId

def cancelOrder (self : OrderService F) (orderId requestingCustomerId : Json F) :
    ToolOf F (Json F) := do
  let order ← find self.state .orders "Order" orderId
  requireOwner order orderId requestingCustomerId
  let status ← order.subscript "status"
  let cancellable ← status.inSet cancellableStatuses
  if !cancellable then
    throw (.policyViolation
      s!"Order cannot be cancelled once its status is {status.repr}: {orderId.format}")
  let order ← order.setItem (.str "status") (.str "cancelled")
  writeBack .orders orderId order
  return order

/-- `any(item["sku"] == sku for item in items)` -/
def anySku (sku : Json F) : List (Json F) → Except (PyError F) Bool
  | [] => .ok false
  | item :: items => do
    let itemSku ← item.subscript "sku"
    if itemSku.pyEq sku then return true else anySku sku items

def replaceItem (self : OrderService F) (orderId requestingCustomerId sku reason : Json F) :
    ToolOf F (Json F) := do
  let order ← find self.state .orders "Order" orderId
  requireOwner order orderId requestingCustomerId
  let items ← order.dictGet (.str "items") (.arr [])
  let items ← items.iter
  let onOrder ← anySku sku items
  if !onOrder then
    throw (.notFound s!"Item not found on order {orderId.format}: {sku.format}")
  let replacements ← readCollection self.state .replacements
  let replaced ← replacements.contains orderId
  if replaced then
    throw (.policyViolation s!"A replacement already exists for order: {orderId.format}")
  let policy ← callPolicy self.policyService "check_replacement_policy"
    (·.checkReplacementPolicy orderId)
  let eligible ← policy.subscript "eligible"
  if !eligible.truthy then
    throw (.policyViolation s!"Order is not eligible for replacement: {orderId.format}")
  let replacement := Json.obj [("order_id", orderId), ("sku", sku), ("reason", reason)]
  store .replacements orderId replacement
  return replacement

end OrderService

/-! ## `RefundService` -/

def RefundService.createRefund (self : RefundService F)
    (orderId requestingCustomerId amountCents reason : Json F) : ToolOf F (Json F) := do
  let order ← find self.state .orders "Order" orderId
  requireOwner order orderId requestingCustomerId
  let refunds ← readCollection self.state .refunds
  let refunded ← refunds.contains orderId
  if refunded then
    throw (.policyViolation s!"A refund already exists for order: {orderId.format}")
  let policy ← callPolicy self.policyService "check_refund_policy" (·.checkRefundPolicy orderId)
  let eligible ← policy.subscript "eligible"
  if !eligible.truthy then
    throw (.policyViolation s!"Order is not eligible for refund: {orderId.format}")
  let maxRefundCents ← policy.subscript "max_refund_cents"
  let exceeds ← amountCents.gt maxRefundCents
  if exceeds then
    throw (.policyViolation "Refund amount exceeds policy maximum")
  let refund := Json.obj
    [("order_id", orderId), ("amount_cents", amountCents), ("reason", reason)]
  store .refunds orderId refund
  return refund

/-! ## `TicketService` -/

namespace TicketService

/-- `ESCALATABLE_STATUSES` -/
def escalatableStatuses : List String := ["open", "pending"]

/-- `ticket.setdefault("notes", []).append(note)` -/
def appendNote (ticketId ticket note : Json F) : ToolOf F (Json F) := do
  let notes ← ticket.setdefault "notes" (.arr [])
  let notes ← notes.append note
  let ticket ← ticket.setItem (.str "notes") notes
  writeBack .tickets ticketId ticket
  return ticket

/-- `ticket[key] = value`, written through to the state. -/
def setField (ticketId ticket : Json F) (key : String) (value : Json F) : ToolOf F (Json F) := do
  let ticket ← ticket.setItem (.str key) value
  writeBack .tickets ticketId ticket
  return ticket

def updateTicket (self : TicketService F) (ticketId status note : Json F) : ToolOf F (Json F) := do
  let ticket ← find self.state .tickets "Ticket" ticketId
  let ticket ← if status ≠ .null then setField ticketId ticket "status" status else pure ticket
  if note ≠ .null then appendNote ticketId ticket note else pure ticket

def escalateTicket (self : TicketService F) (ticketId reason : Json F) : ToolOf F (Json F) := do
  let ticket ← find self.state .tickets "Ticket" ticketId
  let status ← ticket.subscript "status"
  let escalatable ← status.inSet escalatableStatuses
  if !escalatable then
    throw (.policyViolation
      s!"Ticket cannot be escalated from status {status.repr}: {ticketId.format}")
  let ticket ← setField ticketId ticket "status" (.str "escalated")
  let count ← ticket.dictGet (.str "escalation_count") (.int 0)
  let count ← count.addOne
  let ticket ← setField ticketId ticket "escalation_count" count
  appendNote ticketId ticket reason

end TicketService

/-! ## Calling an operation with keyword arguments -/

/-- The public operations. -/
inductive Operation where
  | getCustomer
  | getOrder
  | cancelOrder
  | replaceItem
  | checkRefundPolicy
  | checkReplacementPolicy
  | createRefund
  | updateTicket
  | escalateTicket
  deriving DecidableEq

/-- The parameters of a method after `self`, the optional ones defaulting to `None`. -/
structure Signature where
  required : List String
  optional : List String := []

namespace Operation

/-- The service an operation belongs to. -/
def service : Operation → String
  | .getCustomer => "customer"
  | .getOrder | .cancelOrder | .replaceItem => "order"
  | .checkRefundPolicy | .checkReplacementPolicy => "policy"
  | .createRefund => "refund"
  | .updateTicket | .escalateTicket => "ticket"

/-- The operation's name. -/
def name : Operation → String
  | .getCustomer => "get_customer"
  | .getOrder => "get_order"
  | .cancelOrder => "cancel_order"
  | .replaceItem => "replace_item"
  | .checkRefundPolicy => "check_refund_policy"
  | .checkReplacementPolicy => "check_replacement_policy"
  | .createRefund => "create_refund"
  | .updateTicket => "update_ticket"
  | .escalateTicket => "escalate_ticket"

/-- The class that defines an operation. -/
def className : Operation → String
  | .getCustomer => "CustomerService"
  | .getOrder | .cancelOrder | .replaceItem => "OrderService"
  | .checkRefundPolicy | .checkReplacementPolicy => "PolicyService"
  | .createRefund => "RefundService"
  | .updateTicket | .escalateTicket => "TicketService"

/-- The method's `__qualname__`, which the errors of a call name. -/
def qualname (op : Operation) : String := op.className ++ "." ++ op.name

/-- Every operation. -/
def all : List Operation :=
  [.getCustomer, .getOrder, .cancelOrder, .replaceItem, .checkRefundPolicy,
    .checkReplacementPolicy, .createRefund, .updateTicket, .escalateTicket]

omit [Interpreter] in
theorem mem_all (op : Operation) : op ∈ all := by cases op <;> simp [all]

/-- The parameters an operation declares. -/
def signature : Operation → Signature
  | .getCustomer => { required := ["customer_id"] }
  | .getOrder => { required := ["order_id"] }
  | .cancelOrder => { required := ["order_id", "requesting_customer_id"] }
  | .replaceItem => { required := ["order_id", "requesting_customer_id", "sku", "reason"] }
  | .checkRefundPolicy | .checkReplacementPolicy => { required := ["order_id"] }
  | .createRefund =>
    { required := ["order_id", "requesting_customer_id", "amount_cents", "reason"] }
  | .updateTicket => { required := ["ticket_id"], optional := ["status", "note"] }
  | .escalateTicket => { required := ["ticket_id", "reason"] }

/-- The operation's body on its bound arguments. -/
def body (op : Operation) (a : String → Json F) : ToolOf F (Json F) := fun env =>
  match op with
  | .getCustomer => env.customer.getCustomer (a "customer_id") env
  | .getOrder => env.order.getOrder (a "order_id") env
  | .cancelOrder => env.order.cancelOrder (a "order_id") (a "requesting_customer_id") env
  | .replaceItem =>
    env.order.replaceItem (a "order_id") (a "requesting_customer_id") (a "sku") (a "reason") env
  | .checkRefundPolicy => env.policy.checkRefundPolicy (a "order_id") env
  | .checkReplacementPolicy => env.policy.checkReplacementPolicy (a "order_id") env
  | .createRefund =>
    env.refund.createRefund (a "order_id") (a "requesting_customer_id") (a "amount_cents")
      (a "reason") env
  | .updateTicket => env.ticket.updateTicket (a "ticket_id") (a "status") (a "note") env
  | .escalateTicket => env.ticket.escalateTicket (a "ticket_id") (a "reason") env

/-- The methods that only read the state. -/
def readOnly : Operation → Bool
  | .getCustomer | .getOrder | .checkRefundPolicy | .checkReplacementPolicy => true
  | _ => false

end Operation

/-- The first keyword argument a function does not take. -/
def badKeyword (function : String) (sig : Signature) :
    Dict String (Json F) → Option (TypeErrorCause F)
  | [] => none
  | (key, _) :: rest =>
    if key = "self" then some (.multipleValues function key)
    else if key ∈ sig.required ∨ key ∈ sig.optional then badKeyword function sig rest
    else some (.unexpectedKeyword function key)

/-- The value a parameter gets: an optional one defaults to `None`. -/
def argument (arguments : Dict String (Json F)) (parameter : String) : Json F :=
  (Dict.get? arguments parameter).getD .null

/-- Binding of keyword arguments to the parameters of a bound method, as `method(**arguments)`
does it. -/
def bindArguments (function : String) (sig : Signature) (arguments : Dict String (Json F)) :
    Except (PyError F) (String → Json F) :=
  match badKeyword function sig arguments with
  | some cause => .error (.typeError cause)
  | none =>
    match sig.required.filter fun p => !(Dict.has arguments p) with
    | [] => .ok (argument arguments)
    | missing => .error (.typeError (.missingArguments function missing))

/-- `method(**arguments)` on a public operation. -/
def Operation.call (op : Operation) (arguments : Dict String (Json F)) : ToolOf F (Json F) := do
  let a ← bindArguments op.qualname op.signature arguments
  op.body a

end AgentProof
