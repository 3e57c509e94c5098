import AgentProof.Python.Errors

/-!
# ToolEnvironment/State — the state of one task run and the services wired to it

`SupportState` holds five collections, each whatever JSON value the task seeds it with
(`SupportState.fromMapping`).  A service object is its attributes: the state and the policy service
it was constructed with.  The wiring is part of the model because a service's `__init__` is an
attribute of the service like any other, and calling it again rewires it.
-/

open Machinery

namespace AgentProof

/-! ## The shared state -/

/-- The five collections of a `SupportState`. -/
inductive Collection where
  | customers
  | orders
  | refunds
  | replacements
  | tickets
  deriving DecidableEq

/-- The attribute's name, which is also the key of the snapshot. -/
def Collection.key : Collection → String
  | .customers => "customers"
  | .orders => "orders"
  | .refunds => "refunds"
  | .replacements => "replacements"
  | .tickets => "tickets"

/-- `tool_environment.state.SupportState` -/
@[ext] structure SupportState (F : Type := PyFloat) where
  customers : Json F
  orders : Json F
  refunds : Json F
  replacements : Json F
  tickets : Json F
  deriving DecidableEq

namespace SupportState

variable {F : Type}

/-- The collection a name selects. -/
def get (s : SupportState F) : Collection → Json F
  | .customers => s.customers
  | .orders => s.orders
  | .refunds => s.refunds
  | .replacements => s.replacements
  | .tickets => s.tickets

/-- The state with one collection replaced. -/
def put (s : SupportState F) : Collection → Json F → SupportState F
  | .customers, j => { s with customers := j }
  | .orders, j => { s with orders := j }
  | .refunds, j => { s with refunds := j }
  | .replacements, j => { s with replacements := j }
  | .tickets, j => { s with tickets := j }

@[simp] theorem get_put_self (s : SupportState F) (c : Collection) (j : Json F) :
    (s.put c j).get c = j := by cases c <;> rfl

theorem get_put_of_ne (s : SupportState F) {c c' : Collection} (h : c ≠ c') (j : Json F) :
    (s.put c j).get c' = s.get c' := by
  cases c <;> cases c' <;> first | rfl | exact absurd rfl h

@[simp] theorem put_put (s : SupportState F) (c : Collection) (j j' : Json F) :
    (s.put c j).put c j' = s.put c j' := by cases c <;> rfl

/-- `SupportState.from_mapping`: a missing collection is empty. -/
def fromMapping (data : Dict String (Json F)) : SupportState F where
  customers := (Dict.get? data "customers").getD (.obj [])
  orders := (Dict.get? data "orders").getD (.obj [])
  refunds := (Dict.get? data "refunds").getD (.obj [])
  replacements := (Dict.get? data "replacements").getD (.obj [])
  tickets := (Dict.get? data "tickets").getD (.obj [])

/-- `SupportState.snapshot` -/
def snapshot (s : SupportState F) : Dict String (Json F) :=
  [("customers", s.customers), ("orders", s.orders), ("refunds", s.refunds),
    ("replacements", s.replacements), ("tickets", s.tickets)]

end SupportState

/-! ## The service objects -/

/-- What a service's `_state` attribute refers to. -/
inductive StateRef (F : Type := PyFloat) where
  | shared
  | value (j : Json F)
  deriving DecidableEq

/-- What a service's `_policy_service` attribute refers to. -/
inductive PolicyRef (F : Type := PyFloat) where
  | service
  | value (j : Json F)
  deriving DecidableEq

/-- A `CustomerService`, as its attributes. -/
structure CustomerService (F : Type := PyFloat) where
  state : StateRef F
  deriving DecidableEq

/-- A `PolicyService`, as its attributes. -/
structure PolicyService (F : Type := PyFloat) where
  state : StateRef F
  deriving DecidableEq

/-- An `OrderService`, as its attributes. -/
structure OrderService (F : Type := PyFloat) where
  state : StateRef F
  policyService : PolicyRef F
  deriving DecidableEq

/-- A `RefundService`, as its attributes. -/
structure RefundService (F : Type := PyFloat) where
  state : StateRef F
  policyService : PolicyRef F
  deriving DecidableEq

/-- A `TicketService`, as its attributes. -/
structure TicketService (F : Type := PyFloat) where
  state : StateRef F
  deriving DecidableEq

/-- `tool_environment.environment.SupportToolEnvironment` -/
structure SupportToolEnvironment (F : Type := PyFloat) where
  state : SupportState F
  customer : CustomerService F := ⟨.shared⟩
  policy : PolicyService F := ⟨.shared⟩
  order : OrderService F := ⟨.shared, .service⟩
  refund : RefundService F := ⟨.shared, .service⟩
  ticket : TicketService F := ⟨.shared⟩
  deriving DecidableEq

namespace SupportToolEnvironment

variable {F : Type}

/-- `SupportToolEnvironment(initial_state)` -/
def new (initialState : Dict String (Json F)) : SupportToolEnvironment F :=
  { state := .fromMapping initialState }

/-- `SupportToolEnvironment.snapshot` -/
def snapshot (env : SupportToolEnvironment F) : Dict String (Json F) := env.state.snapshot

/-- The environment with one collection of its state replaced. -/
def put (env : SupportToolEnvironment F) (c : Collection) (j : Json F) : SupportToolEnvironment F :=
  { env with state := env.state.put c j }

@[simp] theorem put_state (env : SupportToolEnvironment F) (c : Collection) (j : Json F) :
    (env.put c j).state = env.state.put c j := rfl

@[simp] theorem put_put (env : SupportToolEnvironment F) (c : Collection) (j j' : Json F) :
    (env.put c j).put c j' = env.put c j' := by simp [put]

/-- What pydantic makes of the `__dict__` of a service: the state it refers to, and the policy
service too, which is nothing to pydantic. -/
def attributes (env : SupportToolEnvironment) (service : String) : Option Json :=
  let state : StateRef → Json
    | .shared => .obj env.snapshot
    | .value j => j
  let policyService : PolicyRef → Option Json
    | .service => none
    | .value j => some j
  let withPolicyService (self : StateRef) (policy : PolicyRef) : Option Json :=
    (policyService policy).map fun p => .obj [("_state", state self), ("_policy_service", p)]
  match service with
  | "customer" => some (.obj [("_state", state env.customer.state)])
  | "order" => withPolicyService env.order.state env.order.policyService
  | "policy" => some (.obj [("_state", state env.policy.state)])
  | "refund" => withPolicyService env.refund.state env.refund.policyService
  | _ => some (.obj [("_state", state env.ticket.state)])

/-- Every service is wired as the constructor wired it. -/
def Wired (env : SupportToolEnvironment F) : Prop := env = { state := env.state }

end SupportToolEnvironment

end AgentProof
