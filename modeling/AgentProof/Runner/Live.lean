import AgentProof.Runner.Rounds
import AgentProof.ToolEnvironment.Effects

/-!
# Runner/Live — what is live in a trace

A step keeps the value its call returned.  Only `__getstate__` returns one that can change later: the
`__dict__` of a service, which reads as the service stands when the trace is read.  What pydantic
could read of it when the call was answered it can read ever after (`CallsRun.keepsReadable`): a
policy service that was replaced by a JSON value is never put back.
-/

open Machinery Machinery.Raising

namespace AgentProof

/-- What pydantic reads of a service it still reads. -/
def SupportToolEnvironment.KeepsReadable (env env' : SupportToolEnvironment) : Prop :=
  ∀ service, (env.attributes service).isSome = true → (env'.attributes service).isSome = true

namespace SupportToolEnvironment

variable {env env' env'' : SupportToolEnvironment}

theorem KeepsReadable.refl (env : SupportToolEnvironment) : env.KeepsReadable env :=
  fun _ h => h

theorem KeepsReadable.trans (h : env.KeepsReadable env') (h' : env'.KeepsReadable env'') :
    env.KeepsReadable env'' := fun service hservice => h' service (h service hservice)

/-- The state plays no part in it. -/
theorem keepsReadable_state (env : SupportToolEnvironment) (s : SupportState) :
    env.KeepsReadable { env with state := s } := by
  intro service h
  rw [← h]
  unfold attributes
  split <;> simp

/-- A service that is rewired is wired to JSON values. -/
theorem keepsReadable_rewire (env : SupportToolEnvironment) (service : String)
    (state policyService : Json) : env.KeepsReadable (env.rewire service state policyService) := by
  intro name h
  unfold rewire attributes at *
  split <;> split <;> simp_all

end SupportToolEnvironment

section Calls

/-- The call hands out the `__dict__` of a service. -/
def HandsOutState (service operation : String) (arguments : Dict String Json) : Prop :=
  service ∈ serviceAttrs ∧ operation = "__getstate__" ∧ arguments = []

instance (service operation : String) (arguments : Dict String Json) :
    Decidable (HandsOutState service operation arguments) :=
  inferInstanceAs (Decidable (_ ∧ _ ∧ _))

/-- The name of a method that a service inherits from `object`. -/
def Inherited (service operation : String) : Prop :=
  service ∈ serviceAttrs ∧ operation ∈ inheritedMethods

instance (service operation : String) : Decidable (Inherited service operation) :=
  inferInstanceAs (Decidable (_ ∧ _))

/-- An inherited method is found on a service, under its name. -/
theorem resolve_eq_inherited {service operation name : String}
    (h : resolve service operation = .ok (.inherited name)) :
    Inherited service operation ∧ name = operation := by
  rw [resolve] at h
  split at h
  · cases h
  · rename_i hservice
    split at h
    · rename_i method hmethod
      obtain rfl := Except.ok.inj h
      rw [getattr] at hmethod
      split at hmethod
      · cases hmethod
      · split_ifs at hmethod with _ hinherited <;> cases hmethod
        exact ⟨⟨not_not.mp hservice, hinherited⟩, rfl⟩
    · cases h

variable [Interpreter] {host : Host} {env env' : SupportToolEnvironment}

/-- **Only `__getstate__` returns what is live**, and that reads as the service stands. -/
theorem execute_eq_attributes {service operation name : String} {arguments : Dict String Json}
    {reading : Option Json}
    (h : execute host service operation arguments env = .ok (.attributes name reading) env') :
    HandsOutState service operation arguments ∧ env' = env ∧ reading = env.attributes name := by
  rw [execute] at h
  cases hresolve : resolve service operation with
  | error e =>
    rw [hresolve] at h
    cases h
  | ok method =>
    rw [hresolve, lift_ok_bind] at h
    cases method with
    | operation op =>
      rw [Method.call, map_apply] at h
      split at h <;> cases h
    | init =>
      rw [Method.call, initService] at h
      split at h <;> cases h
    | inherited name' =>
      obtain ⟨⟨hservice, -⟩, rfl⟩ := resolve_eq_inherited hresolve
      simp only [Method.call] at h
      split_ifs at h with hgetstate
      · cases h
        exact ⟨⟨hservice, hgetstate⟩, rfl, rfl⟩
      · split at h <;> cases h

/-- **A call keeps what can be read.** -/
theorem execute_keepsReadable (host : Host) (service operation : String)
    (arguments : Dict String Json) (env : SupportToolEnvironment) :
    env.KeepsReadable (stateOf (execute host service operation arguments env)) := by
  rw [execute]
  cases hresolve : resolve service operation with
  | error e => exact .refl env
  | ok method =>
    rw [lift_ok_bind]
    cases method with
    | operation op =>
      obtain ⟨s, -, hstate⟩ := op.call_effect arguments env
      have hsame : stateOf (Method.call host service arguments (.operation op) env) =
          stateOf (op.call arguments env) := by
        rw [Method.call, map_apply]
        split <;> rename_i h <;> rw [h] <;> rfl
      rw [hsame, hstate]
      exact env.keepsReadable_state s
    | init =>
      rw [Method.call, initService]
      split
      · exact env.keepsReadable_rewire service _ _
      · exact .refl env
    | inherited name =>
      simp only [Method.call]
      split_ifs
      · exact .refl env
      · split <;> exact .refl env

/-- The environment after a call that was closed. -/
theorem Closing.stateOf_eq {call : ToolCallRequest} {payload : StepPayload}
    (h : Closing host call env payload env') :
    stateOf (execute host call.service call.operation call.arguments env) = env' := by
  cases h with
  | result h => exact congrArg stateOf h
  | error h => exact congrArg stateOf h

theorem Closing.keepsReadable {call : ToolCallRequest} {payload : StepPayload}
    (h : Closing host call env payload env') : env.KeepsReadable env' := by
  rw [← h.stateOf_eq]
  exact execute_keepsReadable host call.service call.operation call.arguments env

theorem CallsRun.keepsReadable {calls : List ToolCallRequest} {steps : List TraceStep}
    {answers : Messages} (h : CallsRun host calls env steps answers env') :
    env.KeepsReadable env' := by
  induction h with
  | nil env => exact .refl env
  | cons _ _ hclosing _ _ _ ih => exact hclosing.keepsReadable.trans ih

theorem RunTrace.keepsReadable {σ : Type} {client : ModelClient σ} {version : AgentVersion}
    {maxSteps maxModelRetries remaining : ℕ} {messages : Messages} {c c' : σ}
    {replies : List ModelReply} {steps : List TraceStep} {finalOutput : Option String}
    (h : RunTrace host client version maxSteps maxModelRetries remaining messages c env replies
      steps finalOutput c' env') : env.KeepsReadable env' := by
  induction h with
  | exceeded => exact .refl _
  | answered => exact .refl _
  | round _ _ hcalls _ ih => exact hcalls.keepsReadable.trans ih

/-- **What was written into the answer can be written later**, if it reads otherwise by then. -/
theorem Closing.dumpFields_settle {call : ToolCallRequest} {payload : StepPayload}
    (h : Closing host call env payload env') {fields : Dict String Json}
    (hfields : payload.dumpFields = .ok fields) {later : SupportToolEnvironment}
    (hkeeps : env'.KeepsReadable later) :
    ∃ fields', (payload.settle later).dumpFields = .ok fields' := by
  cases h with
  | error => exact ⟨fields, hfields⟩
  | @result value _ h =>
    cases value with
    | json _ | object _ _ => exact ⟨fields, hfields⟩
    | attributes service reading =>
      obtain ⟨-, rfl, rfl⟩ := execute_eq_attributes h
      have hread : (env'.attributes service).isSome = true := by
        cases hread : env'.attributes service with
        | some j => rfl
        | none =>
          rw [StepPayload.dumpFields, hread] at hfields
          cases hfields
      obtain ⟨j, hj⟩ := Option.isSome_iff_exists.mp (hkeeps service hread)
      rw [StepPayload.settle, PyValue.settle, hj]
      exact ⟨_, rfl⟩

/-- **What was closed reads the same ever after**, unless it hands out a service. -/
theorem Closing.settle_eq {call : ToolCallRequest} {payload : StepPayload}
    (h : Closing host call env payload env')
    (hstate : ¬ HandsOutState call.service call.operation call.arguments)
    (later : SupportToolEnvironment) : payload.settle later = payload := by
  cases h with
  | error => rfl
  | @result value _ h =>
    cases value with
    | json _ | object _ _ => rfl
    | attributes _ _ => exact absurd (execute_eq_attributes h).1 hstate

theorem CallsRun.settle_eq {calls : List ToolCallRequest} {steps : List TraceStep}
    {answers : Messages} (h : CallsRun host calls env steps answers env')
    (hstate : ∀ call ∈ calls, ¬ HandsOutState call.service call.operation call.arguments)
    (later : SupportToolEnvironment) : steps.map (.settle later) = steps := by
  induction h with
  | nil => rfl
  | @cons _ _ _ _ _ callStep _ _ _ _ hcall _ hclosing _ _ _ ih =>
    obtain ⟨hfirst, hrest⟩ := List.forall_mem_cons.mp hstate
    have hsame : callStep.settle later = callStep :=
      TraceStep.settle_of_ne later (by simp [hcall, StepPayload.eventType])
    rw [List.map_cons, List.map_cons, hsame, TraceStep.settle, hclosing.settle_eq hfirst, ih hrest]

end Calls

end AgentProof
