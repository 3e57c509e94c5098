import AgentProof.Benchmark.Validators
import AgentProof.Runner.ToolProxy

/-!
# Runner/Exposure — which operations the proxy exposes

The proxy means to expose the public operations and to answer every other request with an
`UnknownToolError`.  It resolves names by reflection, so it also reaches `__init__` and the methods
a service inherits: `exposesOnlyDeclared_iff` says that these names, on one of the five services,
are exactly where it fails, in every state and for every arguments.
-/

open Machinery Machinery.Raising

namespace AgentProof

/-! ## Resolution -/

theorem Operation.lookup_self (op : Operation) : lookup op.service op.name = some op := by
  cases op <;> rfl

theorem Operation.lookup_eq_none {service name : String} (h : ¬ Declared service name) :
    lookup service name = none := by
  refine List.find?_eq_none.mpr fun op _ hop => h (declared_iff.mpr ⟨op, ?_⟩)
  simpa using hop

theorem Operation.service_mem (op : Operation) : op.service ∈ serviceAttrs := by
  cases op <;> decide

/-- A public operation resolves to itself. -/
theorem Operation.resolve (op : Operation) :
    AgentProof.resolve op.service op.name = .ok (.operation op) := by
  rw [AgentProof.resolve, if_neg (not_not.mpr op.service_mem), getattr, op.lookup_self]

/-- The name of a callable attribute that is not a public operation, on one of the services. -/
def Reflected (service operation : String) : Prop :=
  service ∈ serviceAttrs ∧ (operation = "__init__" ∨ operation ∈ inheritedMethods)

instance (service operation : String) : Decidable (Reflected service operation) :=
  inferInstanceAs (Decidable (_ ∧ _))

theorem not_declared_of_reflected {service operation : String} (h : Reflected service operation) :
    ¬ Declared service operation := by
  rintro hd
  obtain ⟨op, -, rfl⟩ := declared_iff.mp hd
  have hall : ∀ op ∈ Operation.all, op.name ≠ "__init__" ∧ op.name ∉ inheritedMethods := by decide
  obtain ⟨hinit, hinherited⟩ := hall op op.mem_all
  exact h.2.elim hinit hinherited

/-- A reflected name resolves to a method. -/
theorem resolve_of_reflected {service operation : String} (h : Reflected service operation) :
    ∃ method, resolve service operation = .ok method := by
  have hlookup := Operation.lookup_eq_none (not_declared_of_reflected h)
  rw [resolve, if_neg (not_not.mpr h.1), getattr, hlookup]
  by_cases hinit : operation = "__init__"
  · exact ⟨.init, by simp [hinit]⟩
  · exact ⟨.inherited operation, by simp [hinit, h.2.resolve_left hinit]⟩

/-- Every other name is refused. -/
theorem resolve_of_not_reflected {service operation : String} (hd : ¬ Declared service operation)
    (hr : ¬ Reflected service operation) :
    ∃ message, resolve service operation = .error (.unknownTool message) := by
  rw [resolve]
  by_cases hservice : service ∈ serviceAttrs
  · have hname : ¬ (operation = "__init__" ∨ operation ∈ inheritedMethods) := fun h =>
      hr ⟨hservice, h⟩
    obtain ⟨hinit, hinherited⟩ := not_or.mp hname
    rw [if_neg (not_not.mpr hservice), getattr, Operation.lookup_eq_none hd]
    exact ⟨s!"unknown operation: {service}.{operation}", by
      simp only [hinit, hinherited, if_false]⟩
  · rw [if_pos hservice]
    exact ⟨_, rfl⟩

/-! ## What the proxy promises of one call -/

/-- The proxy executes code of the environment for the pair. -/
def Executes (service operation : String) : Prop :=
  ∃ method, resolve service operation = .ok method

variable [Interpreter]

/-- The call is recorded, followed by an `UnknownToolError`, and the environment — the state and the
wiring of every service — is as it was. -/
def Refused (host : Host) (proxy : TracedToolProxy) (callId service operation : String)
    (arguments : Dict String Json) : Prop :=
  ∃ message, TracedToolProxy.invoke host callId service operation arguments proxy =
    .ok (TracedToolProxy.closingStep host proxy.trace callId service operation arguments
        (.error "UnknownToolError" message))
      (TracedToolProxy.invoked host proxy callId service operation arguments
        (.error "UnknownToolError" message) proxy.environment)

/-- The call runs environment code only for a declared operation, and is refused otherwise. -/
def ExposesOnlyDeclared (host : Host) (proxy : TracedToolProxy)
    (callId service operation : String) (arguments : Dict String Json) : Prop :=
  Declared service operation ∨
    ¬ Executes service operation ∧ Refused host proxy callId service operation arguments

/-- A reflected name is exposed and not declared. -/
theorem not_exposesOnlyDeclared_of_reflected {host : Host} {proxy : TracedToolProxy}
    {callId service operation : String} {arguments : Dict String Json}
    (h : Reflected service operation) :
    ¬ ExposesOnlyDeclared host proxy callId service operation arguments := by
  rintro (hd | ⟨hexecutes, -⟩)
  · exact not_declared_of_reflected h hd
  · exact hexecutes (resolve_of_reflected h)

/-- **The proxy exposes exactly the declared operations for every call but those that name a
reflected method.** -/
theorem exposesOnlyDeclared_iff (host : Host) (proxy : TracedToolProxy)
    (callId service operation : String) (arguments : Dict String Json) :
    ExposesOnlyDeclared host proxy callId service operation arguments ↔
      ¬ Reflected service operation := by
  refine ⟨fun h hr => not_exposesOnlyDeclared_of_reflected hr h, fun hr => ?_⟩
  by_cases hd : Declared service operation
  · exact .inl hd
  · obtain ⟨message, hresolve⟩ := resolve_of_not_reflected hd hr
    have hexecute : execute host service operation arguments proxy.environment =
        .error (.unknownTool message) proxy.environment := by
      rw [execute, hresolve]
      rfl
    refine .inr ⟨?_, message, TracedToolProxy.invoke_of_caught hexecute rfl⟩
    rintro ⟨method, hmethod⟩
    exact absurd (hresolve.symm.trans hmethod) (by simp)

/-- The host of a closed run: ids and durations are the step numbers, and inherited methods raise. -/
def plainHost : Host where
  stepId n := toString n
  durationMs n := n
  latencyMs := 0
  newExecutionId := "execution"
  objectMethod _ _ name arguments := .error (.builtinCall name (arguments.map Prod.fst))

/-- A fresh proxy over an empty environment. -/
def emptyProxy : TracedToolProxy where
  environment := .new []
  trace := { executionId := "execution" }

omit [Interpreter] in
/-- **`order.__init__` is executed, and leaves the order service over another state.** -/
theorem not_exposesOnlyDeclared_init :
    ¬ @ExposesOnlyDeclared cpython plainHost emptyProxy "c1" "order" "__init__"
        [("state", .obj []), ("policy_service", .obj [])] ∧
    (stateOf (@TracedToolProxy.invoke cpython plainHost "c1" "order" "__init__"
        [("state", .obj []), ("policy_service", .obj [])] emptyProxy)).environment.order ≠
      emptyProxy.environment.order := by
  let _ := cpython
  exact ⟨not_exposesOnlyDeclared_of_reflected (by decide), by decide⟩

end AgentProof
