import AgentProof.Judges.Contracts
import AgentProof.Python.Congruence

/-!
# Judges/Congruence — scoring sees a run through `==`

Equal tool calls and equal final states are scored alike.  The texts of the mismatches may differ,
since they print the values; whether there are any does not (`scoreActions_passed_eq`).
-/

open Machinery

namespace AgentProof

/-- Two tool calls that are `==`. -/
structure AlikeCall (call call' : ToolCall) : Prop where
  service : call.service = call'.service
  operation : call.operation = call'.operation
  arguments : Json.Alike (.obj call.arguments) (.obj call'.arguments)

theorem AlikeCall.symm {call call' : ToolCall} (h : AlikeCall call call') : AlikeCall call' call :=
  ⟨h.service.symm, h.operation.symm, h.arguments.symm⟩

/-- Equal arguments contain the same items. -/
theorem itemsLe_eq (expected : Dict String Json) {actual actual' : Dict String Json}
    (h : Json.Alike (.obj actual) (.obj actual')) :
    itemsLe expected actual = itemsLe expected actual' := by
  have hitem : ∀ e : String × Json, ((Dict.get? actual e.1).any fun v => e.2.pyEq v) =
      (Dict.get? actual' e.1).any fun v => e.2.pyEq v := by
    intro e
    have hread := Json.alike_obj_iff.mp h e.1
    cases hget : Dict.get? actual e.1 <;> cases hget' : Dict.get? actual' e.1 <;>
      rw [hget, hget'] at hread
    · exact hread.elim
    · exact hread.elim
    · exact (Json.Alike.refl e.2).pyEq_eq hread
  rw [itemsLe, itemsLe]
  exact congrArg (List.all expected) (funext hitem)

variable [Interpreter]

/-- A value that is no object is compared by `==`. -/
theorem diffFinalState_eq_nil_iff_pyEq {expected : Json} (h : ∀ fields, expected ≠ .obj fields)
    (actual : Json) (path : String) :
    diffFinalState expected actual path = [] ↔ expected.pyEq actual = true := by
  cases expected with
  | obj fields => exact absurd rfl (h fields)
  | _ => simp [diffFinalState]

/-- An object is not contained in anything else. -/
theorem diffFinalState_obj_ne_nil {actual : Json} (h : ∀ fields, actual ≠ .obj fields)
    (fields : List (String × Json)) (path : String) :
    diffFinalState (.obj fields) actual path ≠ [] := by
  cases actual with
  | obj actualFields => exact absurd rfl (h actualFields)
  | _ => simp [diffFinalState]

mutual

/-- **Equal values contain the same expected ones**, wherever they are looked at. -/
theorem diffFinalState_eq_nil_iff (expected : Json) {actual actual' : Json} (path path' : String)
    (h : actual.Alike actual') :
    diffFinalState expected actual path = [] ↔ diffFinalState expected actual' path' = [] :=
  match expected with
  | .obj fields => by
    rcases h.obj_cases with ⟨fs, gs, rfl, rfl⟩ | ⟨hobj, hobj'⟩
    · simp only [diffFinalState]
      exact diffFields_eq_nil_iff fields path path' h
    · exact iff_of_false (diffFinalState_obj_ne_nil hobj fields path)
        (diffFinalState_obj_ne_nil hobj' fields path')
  | .null | .bool _ | .int _ | .float _ | .str _ | .arr _ => by
    rw [diffFinalState_eq_nil_iff_pyEq (by simp), diffFinalState_eq_nil_iff_pyEq (by simp),
      (Json.Alike.refl _).pyEq_eq h]

theorem diffFields_eq_nil_iff (fields : List (String × Json)) {actual actual' : Dict String Json}
    (path path' : String) (h : Json.Alike (.obj actual) (.obj actual')) :
    diffFields fields actual path = [] ↔ diffFields fields actual' path' = [] :=
  match fields with
  | [] => Iff.rfl
  | (key, value) :: fields => by
    have hread := Json.alike_obj_iff.mp h key
    rw [diffFields, diffFields, List.append_eq_nil_iff, List.append_eq_nil_iff]
    refine and_congr ?_ (diffFields_eq_nil_iff fields path path' h)
    cases hget : Dict.get? actual key <;> cases hget' : Dict.get? actual' key <;>
      rw [hget, hget'] at hread
    · simp
    · exact hread.elim
    · exact hread.elim
    · exact diffFinalState_eq_nil_iff value _ _ hread

end

end AgentProof
