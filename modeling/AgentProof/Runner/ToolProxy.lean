import AgentProof.Platform.Trace
import AgentProof.ToolEnvironment.Services

/-!
# Runner/ToolProxy — the traced proxy around the environment

`TracedToolProxy.invoke` records a tool call, resolves the operation by `getattr` on the service and
calls what it found; the exceptions it catches become an error step.

`getattr` finds more than the public operations: a service's `__init__`, and every method a Python
object inherits, of which `__getstate__` hands out the service's own `__dict__`.  An attribute that
is not callable (`_state`, `REFUND_WINDOW_DAYS`, `__doc__`) is refused like a missing one.
-/

open Machinery Machinery.Raising

namespace AgentProof

/-! ## What `getattr` finds -/

/-- `_SERVICE_ATTRS` -/
def serviceAttrs : List String := ["customer", "order", "policy", "refund", "ticket"]

/-- The callable attributes every instance inherits from `object`. -/
def inheritedMethods : List String :=
  ["__class__", "__delattr__", "__dir__", "__eq__", "__format__", "__ge__", "__getattribute__",
    "__getstate__", "__gt__", "__hash__", "__init_subclass__", "__le__", "__lt__", "__ne__",
    "__new__", "__reduce__", "__reduce_ex__", "__repr__", "__setattr__", "__sizeof__", "__str__",
    "__subclasshook__"]

/-- A callable attribute of a service. -/
inductive Method where
  | operation (op : Operation)
  | init
  | inherited (name : String)
  deriving DecidableEq

/-- The public operation of a service under a name. -/
def Operation.lookup (service name : String) : Option Operation :=
  Operation.all.find? fun op => op.service = service ∧ op.name = name

/-- `getattr(target, operation, None)`, where what it finds is callable. -/
def getattr (service operation : String) : Option Method :=
  match Operation.lookup service operation with
  | some op => some (.operation op)
  | none =>
    if operation = "__init__" then some .init
    else if operation ∈ inheritedMethods then some (.inherited operation)
    else none

/-- `TracedToolProxy._resolve` -/
def resolve (service operation : String) : Except PyError Method :=
  if service ∉ serviceAttrs then
    .error (.unknownTool s!"unknown service: {service}")
  else
    match getattr service operation with
    | some method => .ok method
    | none => .error (.unknownTool s!"unknown operation: {service}.{operation}")

/-! ## Calling it -/

/-- The class of a service. -/
def serviceClass : String → String
  | "customer" => "CustomerService"
  | "order" => "OrderService"
  | "policy" => "PolicyService"
  | "refund" => "RefundService"
  | _ => "TicketService"

/-- The parameters of a service's `__init__`. -/
def initSignature : String → Signature
  | "order" | "refund" => { required := ["state", "policy_service"] }
  | _ => { required := ["state"] }

/-- What a service's `__init__` does to the service when it is called again. -/
def SupportToolEnvironment.rewire (env : SupportToolEnvironment) (service : String)
    (state policyService : Json) : SupportToolEnvironment :=
  match service with
  | "customer" => { env with customer := ⟨.value state⟩ }
  | "order" => { env with order := ⟨.value state, .value policyService⟩ }
  | "policy" => { env with policy := ⟨.value state⟩ }
  | "refund" => { env with refund := ⟨.value state, .value policyService⟩ }
  | _ => { env with ticket := ⟨.value state⟩ }

/-- `service.__init__(**arguments)` -/
def initService (service : String) (arguments : Dict String Json) : Tool PyValue := fun env =>
  match bindArguments (serviceClass service ++ ".__init__") (initSignature service) arguments with
  | .ok a => .ok (.json .null) (env.rewire service (a "state") (a "policy_service"))
  | .error e => .error e env

variable [Interpreter]

/-- `method(**arguments)` -/
def Method.call (host : Host) (service : String) (arguments : Dict String Json) :
    Method → Tool PyValue
  | .operation op => PyValue.json <$> op.call arguments
  | .init => initService service arguments
  | .inherited name => fun env =>
    if name = "__getstate__" ∧ arguments = [] then
      .ok (.attributes service (env.attributes service)) env
    else
      match host.objectMethod env service name arguments with
      | .ok (className, dump) => .ok (.object className dump) env
      | .error cause => .error (.typeError cause) env

/-- The body of the proxy's `try`. -/
def execute (host : Host) (service operation : String) (arguments : Dict String Json) :
    Tool PyValue := do
  let method ← resolve service operation
  method.call host service arguments

/-- `except (ToolEnvironmentError, UnknownToolError, TypeError)` -/
def PyError.caughtByProxy : PyError → Bool
  | .notFound _ | .policyViolation _ | .unknownTool _ | .typeError _ => true
  | _ => false

/-- `runner.tool_proxy.TracedToolProxy`, as its attributes. -/
structure TracedToolProxy where
  environment : SupportToolEnvironment
  trace : Trace

namespace TracedToolProxy

/-- `self._trace.append(payload, …)` -/
def appendStep (host : Host) (payload : StepPayload) (parent : Option UUID)
    (duration : Option ℕ) : EStateM PyError TracedToolProxy TraceStep := fun proxy =>
  match proxy.trace.append host payload parent duration with
  | .ok (step, trace) => .ok step { proxy with trace := trace }
  | .error e => .error e proxy

/-- The `try` of `invoke`: what it raises is handed on as a value. -/
def tryExecute (host : Host) (service operation : String) (arguments : Dict String Json) :
    EStateM PyError TracedToolProxy (Except PyError PyValue) :=
  zoom (·.environment) (fun proxy env => { proxy with environment := env })
    (attempt (execute host service operation arguments))

/-- `TracedToolProxy.invoke` -/
def invoke (host : Host) (callId service operation : String) (arguments : Dict String Json) :
    EStateM PyError TracedToolProxy TraceStep := do
  let callStep ← appendStep host (.toolCall callId service operation arguments) none none
  let durationMs := host.durationMs (callStep.sequenceNo + 1)
  match ← tryExecute host service operation arguments with
  | .ok result => appendStep host (.toolResult callId result) (some callStep.id) (some durationMs)
  | .error e =>
    if e.caughtByProxy then
      appendStep host (.error e.className e.text) (some callStep.id) (some durationMs)
    else
      throw e

/-! ## What an invocation does -/

/-- The tool-call step an invocation opens with. -/
def callStep (host : Host) (trace : Trace) (callId service operation : String)
    (arguments : Dict String Json) : TraceStep :=
  trace.nextStep host (.toolCall callId service operation arguments) none none

/-- The step an invocation closes with. -/
def closingStep (host : Host) (trace : Trace) (callId service operation : String)
    (arguments : Dict String Json) (payload : StepPayload) : TraceStep :=
  (trace.push host (.toolCall callId service operation arguments) none none).2.nextStep host
    payload (some (callStep host trace callId service operation arguments).id)
    (some (host.durationMs (trace.steps.length + 1)))

/-- The proxy after an invocation that closed with `payload`. -/
def invoked (host : Host) (proxy : TracedToolProxy) (callId service operation : String)
    (arguments : Dict String Json) (payload : StepPayload) (env : SupportToolEnvironment) :
    TracedToolProxy where
  environment := env
  trace := { proxy.trace with
    steps := proxy.trace.steps ++
      [callStep host proxy.trace callId service operation arguments,
        closingStep host proxy.trace callId service operation arguments payload] }

omit [Interpreter] in
theorem appendStep_none (host : Host) (payload : StepPayload) (duration : Option ℕ)
    (proxy : TracedToolProxy) :
    appendStep host payload none duration proxy =
      .ok (proxy.trace.nextStep host payload none duration)
        { proxy with trace := (proxy.trace.push host payload none duration).2 } := rfl

omit [Interpreter] in
theorem appendStep_of_hasStep (host : Host) (payload : StepPayload) {parent : UUID}
    (duration : Option ℕ) {proxy : TracedToolProxy} (h : proxy.trace.hasStep parent = true) :
    appendStep host payload (some parent) duration proxy =
      .ok (proxy.trace.nextStep host payload (some parent) duration)
        { proxy with trace := (proxy.trace.push host payload (some parent) duration).2 } := by
  rw [appendStep, Trace.append_of_hasStep host payload h]
  rfl

section

variable {host : Host} {proxy : TracedToolProxy} {callId service operation : String}
  {arguments : Dict String Json} {env : SupportToolEnvironment}

omit [Interpreter] in
/-- The closing step has its tool call to be the child of. -/
theorem appendStep_closing (payload : StepPayload) :
    appendStep host payload (some (callStep host proxy.trace callId service operation arguments).id)
      (some (host.durationMs (proxy.trace.steps.length + 1)))
      { environment := env
        trace := (proxy.trace.push host (.toolCall callId service operation arguments)
          none none).2 } =
    .ok (closingStep host proxy.trace callId service operation arguments payload)
      (invoked host proxy callId service operation arguments payload env) := by
  rw [appendStep_of_hasStep host payload _ (Trace.hasStep_push host proxy.trace _ none none)]
  simp [closingStep, invoked, callStep, Trace.push]

/-- The execution returns: the call is followed by its result. -/
theorem invoke_of_ok {value : PyValue}
    (h : execute host service operation arguments proxy.environment = .ok value env) :
    invoke host callId service operation arguments proxy =
      .ok (closingStep host proxy.trace callId service operation arguments
          (.toolResult callId value))
        (invoked host proxy callId service operation arguments (.toolResult callId value) env) := by
  rw [← appendStep_closing, invoke, bind_of_ok (appendStep_none host _ none proxy)]
  simp only [tryExecute, bind_apply, zoom, attempt, h]
  rfl

/-- The execution raises what the proxy catches: the call is followed by an error. -/
theorem invoke_of_caught {e : PyError}
    (h : execute host service operation arguments proxy.environment = .error e env)
    (hcaught : e.caughtByProxy = true) :
    invoke host callId service operation arguments proxy =
      .ok (closingStep host proxy.trace callId service operation arguments
          (.error e.className e.text))
        (invoked host proxy callId service operation arguments
          (.error e.className e.text) env) := by
  rw [← appendStep_closing, invoke, bind_of_ok (appendStep_none host _ none proxy)]
  simp only [tryExecute, bind_apply, zoom, attempt, h, hcaught, if_true]
  rfl

/-- The execution raises anything else: so does the invocation. -/
theorem invoke_of_raised {e : PyError}
    (h : execute host service operation arguments proxy.environment = .error e env)
    (hcaught : e.caughtByProxy = false) :
    ∃ proxy', invoke host callId service operation arguments proxy = .error e proxy' := by
  rw [invoke, bind_of_ok (appendStep_none host _ none proxy)]
  simp only [tryExecute, bind_apply, zoom, attempt, h, hcaught]
  exact ⟨_, rfl⟩

/-- **An invocation that returns appended a tool call and its result or error.** -/
theorem invoke_eq_ok {step : TraceStep} {proxy' : TracedToolProxy}
    (h : invoke host callId service operation arguments proxy = .ok step proxy') :
    ∃ payload env, stateOf (execute host service operation arguments proxy.environment) = env ∧
      step = closingStep host proxy.trace callId service operation arguments payload ∧
      proxy' = invoked host proxy callId service operation arguments payload env ∧
      ((∃ value, execute host service operation arguments proxy.environment = .ok value env ∧
        payload = .toolResult callId value) ∨
      ∃ e, execute host service operation arguments proxy.environment = .error e env ∧
        e.caughtByProxy = true ∧ payload = .error e.className e.text) := by
  cases hrun : execute host service operation arguments proxy.environment with
  | ok value env =>
    rw [invoke_of_ok hrun] at h
    injection h with hstep hproxy
    exact ⟨_, env, rfl, hstep.symm, hproxy.symm, .inl ⟨value, rfl, rfl⟩⟩
  | error e env =>
    cases hcaught : e.caughtByProxy with
    | true =>
      rw [invoke_of_caught hrun hcaught] at h
      injection h with hstep hproxy
      exact ⟨_, env, rfl, hstep.symm, hproxy.symm, .inr ⟨e, rfl, hcaught, rfl⟩⟩
    | false =>
      obtain ⟨proxy', hraise⟩ :
          ∃ p, invoke host callId service operation arguments proxy = .error e p :=
        invoke_of_raised hrun hcaught
      exact absurd (hraise.symm.trans h) (by simp)

end

end TracedToolProxy

end AgentProof
