import AgentProof.Judges.Congruence
import AgentProof.Platform.Extensional

/-!
# Judges/Containment — what a final state has to contain

`_diff_final_state` reports nothing exactly if the expected value is *contained* in the actual one
(`diffFinalState_eq_nil_iff_contained`): an object in any object with as much under its keys, another
value in what is `==` to it.  Containment is transitive, and **two values that contain each other are
`==`** (`alike_of_contained`).

So a contract is met when its actions are called, its forbidden actions are not, and its final state is
contained (`passed_iff`).
-/

open Machinery

namespace AgentProof

namespace Json

mutual

/-- `expected` is contained in `actual`. -/
def contained : Json → Json → Bool
  | .obj fields, actual =>
    match actual with
    | .obj actualFields => containedFields fields actualFields
    | _ => false
  | expected, actual => expected.pyEq actual

/-- Every field is contained in what an object reads under its key. -/
def containedFields : List (String × Json) → Dict String Json → Bool
  | [], _ => true
  | (key, value) :: fields, actual =>
    (match Dict.get? actual key with
      | none => false
      | some actualValue => contained value actualValue) && containedFields fields actual

end

theorem containedFields_iff {actual : Dict String Json} {fields : List (String × Json)} :
    containedFields fields actual = true ↔
      ∀ e ∈ fields, ∃ v, Dict.get? actual e.1 = some v ∧ contained e.2 v = true := by
  induction fields with
  | nil => simp [containedFields]
  | cons e fields ih =>
    rw [containedFields, Bool.and_eq_true, ih, List.forall_mem_cons]
    refine and_congr_left fun _ => ?_
    cases Dict.get? actual e.1 <;> simp

theorem contained_obj_iff {fields : List (String × Json)} {actual : Json} :
    contained (.obj fields) actual = true ↔ ∃ actualFields : Dict String Json,
      actual = .obj actualFields ∧
        ∀ e ∈ fields, ∃ v, Dict.get? actualFields e.1 = some v ∧ contained e.2 v = true := by
  cases actual <;> simp [contained, containedFields_iff]

theorem contained_of_not_obj {expected : Json} (h : ∀ fields, expected ≠ .obj fields)
    (actual : Json) : contained expected actual = true ↔ expected.Alike actual := by
  cases expected with
  | obj fields => exact absurd rfl (h fields)
  | _ => exact pyEq_iff

/-- What is `==` to the expected value is contained like it. -/
theorem contained_alike_trans {a b c : Json} (ha : ∀ fields, a ≠ .obj fields)
    (hab : contained a b = true) (hbc : contained b c = true) : contained a c = true := by
  have halike := (contained_of_not_obj ha b).mp hab
  have hb : ∀ fields, b ≠ .obj fields := by
    rcases halike.obj_cases with ⟨fs, gs, rfl, rfl⟩ | ⟨-, hb⟩
    · exact absurd rfl (ha fs)
    · exact hb
  exact (contained_of_not_obj ha c).mpr (halike.trans ((contained_of_not_obj hb c).mp hbc))

/-- A value without repeated keys is contained in itself. -/
theorem contained_refl {j : Json} (hj : j.distinctKeys = true) : contained j j = true := by
  induction j using Json.induct with
  | scalar j hscalar =>
    refine (contained_of_not_obj ?_ j).mpr (Alike.refl j)
    rintro fields rfl
    exact absurd hscalar (by simp [scalar])
  | arr items _ => exact (contained_of_not_obj (by simp) _).mpr (Alike.refl _)
  | obj fields ih =>
    rw [distinctKeys_obj_iff] at hj
    refine contained_obj_iff.mpr ⟨fields, rfl, fun e he => ?_⟩
    have hread : Dict.get? fields e.1 = some e.2 := Dict.get?_eq_some_of_mem hj.1 he
    exact ⟨e.2, hread, ih e.1 e.2 hread (hj.2 e he)⟩

mutual

/-- **Containment is transitive.** -/
theorem contained_trans : ∀ {a b c : Json}, contained a b = true → contained b c = true →
    contained a c = true
  | .obj fields, b, c, hab, hbc => by
    obtain ⟨gs, rfl, hgs⟩ := contained_obj_iff.mp hab
    obtain ⟨hs, rfl, hhs⟩ := contained_obj_iff.mp hbc
    exact contained_obj_iff.mpr ⟨hs, rfl, containedFields_trans hgs hhs⟩
  | .null, b, c, hab, hbc => contained_alike_trans (by simp) hab hbc
  | .bool _, b, c, hab, hbc => contained_alike_trans (by simp) hab hbc
  | .int _, b, c, hab, hbc => contained_alike_trans (by simp) hab hbc
  | .float _, b, c, hab, hbc => contained_alike_trans (by simp) hab hbc
  | .str _, b, c, hab, hbc => contained_alike_trans (by simp) hab hbc
  | .arr _, b, c, hab, hbc => contained_alike_trans (by simp) hab hbc

theorem containedFields_trans : ∀ {fields : List (String × Json)} {gs hs : Dict String Json},
    (∀ e ∈ fields, ∃ v, Dict.get? gs e.1 = some v ∧ contained e.2 v = true) →
    (∀ e ∈ gs, ∃ v, Dict.get? hs e.1 = some v ∧ contained e.2 v = true) →
    ∀ e ∈ fields, ∃ v, Dict.get? hs e.1 = some v ∧ contained e.2 v = true
  | [], _, _, _, _, _, hmem => absurd hmem (by simp)
  | (key, value) :: fields, gs, hs, hgs, hhs, e, hmem => by
    obtain ⟨hvalue, hrest⟩ := List.forall_mem_cons.mp hgs
    rcases List.mem_cons.mp hmem with heq | hmem
    · obtain ⟨v, hv, hcontained⟩ := hvalue
      obtain ⟨w, hw, hcontained'⟩ := hhs (key, v) (Dict.mem_of_get?_eq_some hv)
      exact heq ▸ ⟨w, hw, contained_trans hcontained hcontained'⟩
    · exact containedFields_trans hrest hhs e hmem

end

/-- **Two values that contain each other are `==`.** -/
theorem alike_of_contained {a b : Json} (hab : contained a b = true) (hba : contained b a = true) :
    a.Alike b := by
  induction a using Json.induct generalizing b with
  | scalar a hscalar =>
    refine (contained_of_not_obj ?_ b).mp hab
    rintro fields rfl
    exact absurd hscalar (by simp [scalar])
  | arr items _ => exact (contained_of_not_obj (by simp) b).mp hab
  | obj fs ih =>
    obtain ⟨gs, rfl, hfs⟩ := contained_obj_iff.mp hab
    obtain ⟨_, ⟨⟩, hgs⟩ := contained_obj_iff.mp hba
    refine alike_obj_iff.mpr fun k => ?_
    cases hf : Dict.get? fs k with
    | none =>
      cases hg : Dict.get? gs k with
      | none => exact trivial
      | some w =>
        obtain ⟨v, hv, -⟩ := hgs (k, w) (Dict.mem_of_get?_eq_some hg)
        rw [hf] at hv
        cases hv
    | some v =>
      obtain ⟨w, hw, hvw⟩ := hfs (k, v) (Dict.mem_of_get?_eq_some hf)
      obtain ⟨v', hv', hwv⟩ := hgs (k, w) (Dict.mem_of_get?_eq_some hw)
      obtain rfl : v' = v := Option.some.inj (hv'.symm.trans hf)
      rw [hw]
      exact ih k v' hf hvw hwv

/-- A value without repeated keys is contained in what is `==` to it. -/
theorem contained_of_alike {a b : Json} (ha : a.distinctKeys = true) (h : a.Alike b) :
    contained a b = true := by
  induction a using Json.induct generalizing b with
  | scalar a hscalar =>
    refine (contained_of_not_obj ?_ b).mpr h
    rintro fields rfl
    exact absurd hscalar (by simp [scalar])
  | arr items _ => exact (contained_of_not_obj (by simp) b).mpr h
  | obj fs ih =>
    rw [distinctKeys_obj_iff] at ha
    obtain ⟨gs, rfl⟩ := alike_extensional.exists_obj h
    refine contained_obj_iff.mpr ⟨gs, rfl, fun e he => ?_⟩
    have hf : Dict.get? fs e.1 = some e.2 := Dict.get?_eq_some_of_mem ha.1 he
    have hread := alike_obj_iff.mp h e.1
    rw [hf] at hread
    cases hg : Dict.get? gs e.1 with
    | none =>
      rw [hg] at hread
      exact hread.elim
    | some w =>
      rw [hg] at hread
      exact ⟨w, rfl, ih e.1 e.2 hf (ha.2 e he) hread⟩

/-- A value contains whatever another contains. -/
def Covers (v w : Json) : Prop := ∀ a, contained a v = true → contained a w = true

theorem Covers.refl (v : Json) : v.Covers v := fun _ h => h

/-- **An object covers another when each key's value does.** -/
theorem covers_obj {fs gs : Dict String Json}
    (h : ∀ k v, Dict.get? fs k = some v → ∃ w, Dict.get? gs k = some w ∧ v.Covers w) :
    (obj fs).Covers (obj gs) := by
  intro a ha
  by_cases hobj : ∃ fields, a = .obj fields
  · obtain ⟨fields, rfl⟩ := hobj
    obtain ⟨_, hfs, hfields⟩ := contained_obj_iff.mp ha
    obtain rfl := obj.inj hfs
    refine contained_obj_iff.mpr ⟨gs, rfl, fun e he => ?_⟩
    obtain ⟨v, hv, hcontained⟩ := hfields e he
    obtain ⟨w, hw, hcovers⟩ := h e.1 v hv
    exact ⟨w, hw, hcovers e.2 hcontained⟩
  · have halike := (contained_of_not_obj (fun fields hfields => hobj ⟨fields, hfields⟩) _).mp ha
    exact absurd (alike_extensional.exists_obj halike.symm) hobj

/-- Dictionaries whose values cover each other under the same keys. -/
theorem covers_of_alike {fs gs : Dict String Json} (h : Dict.Alike id Covers fs gs) :
    (obj fs).Covers (obj gs) := by
  refine covers_obj fun k v hv => ?_
  have hread := h.get? Function.injective_id k
  rw [id, hv] at hread
  cases hw : Dict.get? gs k with
  | none =>
    rw [hw] at hread
    cases hread
  | some w =>
    rw [hw] at hread
    cases hread with
    | some hcovers => exact ⟨w, rfl, hcovers⟩

end Json

/-! ## The report of mismatches -/

section Report

variable [Interpreter]

mutual

/-- **Nothing is reported of a value that is contained**, and of no other. -/
theorem diffFinalState_eq_nil_iff_contained : ∀ (expected actual : Json) (path : String),
    diffFinalState expected actual path = [] ↔ expected.contained actual = true
  | .obj fields, actual, path => by
    cases actual with
    | obj actualFields =>
      simp only [diffFinalState, Json.contained]
      exact diffFields_eq_nil_iff_contained fields actualFields path
    | _ => simp [diffFinalState, Json.contained]
  | .null, actual, path => diffFinalState_eq_nil_iff_pyEq (by simp) actual path
  | .bool _, actual, path => diffFinalState_eq_nil_iff_pyEq (by simp) actual path
  | .int _, actual, path => diffFinalState_eq_nil_iff_pyEq (by simp) actual path
  | .float _, actual, path => diffFinalState_eq_nil_iff_pyEq (by simp) actual path
  | .str _, actual, path => diffFinalState_eq_nil_iff_pyEq (by simp) actual path
  | .arr _, actual, path => diffFinalState_eq_nil_iff_pyEq (by simp) actual path

theorem diffFields_eq_nil_iff_contained : ∀ (fields : List (String × Json))
    (actual : Dict String Json) (path : String),
    diffFields fields actual path = [] ↔ Json.containedFields fields actual = true
  | [], _, _ => by simp [diffFields, Json.containedFields]
  | (key, value) :: fields, actual, path => by
    rw [diffFields, Json.containedFields, List.append_eq_nil_iff, Bool.and_eq_true]
    refine and_congr ?_ (diffFields_eq_nil_iff_contained fields actual path)
    cases Dict.get? actual key with
    | none => simp
    | some v => exact diffFinalState_eq_nil_iff_contained value v _

end

end Report

/-! ## Contracts -/

/-- The call that an expected action describes. -/
def ExpectedAction.call (expected : ExpectedAction) : ToolCall :=
  ⟨expected.service, expected.operation, expected.arguments⟩

/-- The call that a forbidden action describes. -/
def ForbiddenAction.call (forbidden : ForbiddenAction) : ToolCall :=
  ⟨forbidden.service, forbidden.operation, forbidden.arguments⟩

/-- A call that meets an expected action. -/
abbrev ExpectedAction.metBy (expected : ExpectedAction) (call : ToolCall) : Bool :=
  call.matchesAction expected.service expected.operation expected.arguments

/-- A call that a forbidden action forbids. -/
abbrev ForbiddenAction.forbids (forbidden : ForbiddenAction) (call : ToolCall) : Bool :=
  call.matchesAction forbidden.service forbidden.operation forbidden.arguments

/-- **A contract contradicts itself** when it forbids an action that it expects. -/
def BenchmarkTask.Contradictory (task : BenchmarkTask) : Prop :=
  ∃ forbidden ∈ task.forbiddenActions, ∃ expected ∈ task.expectedActions,
    forbidden.forbids expected.call = true

instance (task : BenchmarkTask) : Decidable task.Contradictory :=
  inferInstanceAs (Decidable (∃ forbidden ∈ task.forbiddenActions, _))

theorem itemsLe_iff {expected actual : Dict String Json} :
    itemsLe expected actual = true ↔
      ∀ e ∈ expected, ∃ v, Dict.get? actual e.1 = some v ∧ e.2.Alike v := by
  rw [itemsLe, List.all_eq_true]
  refine forall₂_congr fun e _ => ?_
  cases Dict.get? actual e.1 <;> simp [Json.Alike]

/-- Arguments without repeated keys contain themselves. -/
theorem itemsLe_refl {arguments : Dict String Json} (h : (arguments.map Prod.fst).Nodup) :
    itemsLe arguments arguments = true :=
  itemsLe_iff.mpr fun e he => ⟨e.2, Dict.get?_eq_some_of_mem h he, Json.Alike.refl e.2⟩

/-- **Containment of arguments is transitive.** -/
theorem itemsLe_trans {a b c : Dict String Json} (hab : itemsLe a b = true)
    (hbc : itemsLe b c = true) : itemsLe a c = true := by
  refine itemsLe_iff.mpr fun e he => ?_
  obtain ⟨v, hv, hev⟩ := itemsLe_iff.mp hab e he
  obtain ⟨w, hw, hvw⟩ := itemsLe_iff.mp hbc (e.1, v) (Dict.mem_of_get?_eq_some hv)
  exact ⟨w, hw, hev.trans hvw⟩

theorem matchesAction_iff {service operation : String} {arguments : Dict String Json}
    {call : ToolCall} : call.matchesAction service operation arguments = true ↔
      call.service = service ∧ call.operation = operation ∧
        itemsLe arguments call.arguments = true := by
  rw [ToolCall.matchesAction, Bool.and_eq_true, Bool.and_eq_true, decide_eq_true_eq,
    decide_eq_true_eq, and_assoc]

/-- A call that an action matches is matched by the actions that are `==` to it. -/
theorem matchesAction_of_alike {a b : ToolCall} (h : AlikeCall a b)
    (hb : (b.arguments.map Prod.fst).Nodup) {call : ToolCall}
    (hmatch : call.matchesAction a.service a.operation a.arguments = true) :
    call.matchesAction b.service b.operation b.arguments = true := by
  obtain ⟨hservice, hoperation, hle⟩ := matchesAction_iff.mp hmatch
  have hback : itemsLe b.arguments a.arguments = true := by
    rw [itemsLe_eq b.arguments h.arguments]
    exact itemsLe_refl hb
  exact matchesAction_iff.mpr ⟨hservice.trans h.service, hoperation.trans h.operation,
    itemsLe_trans hback hle⟩

/-- A call that meets an expected action is forbidden if the action is. -/
theorem forbids_of_metBy {forbidden : ForbiddenAction} {expected : ExpectedAction}
    (hforbids : forbidden.forbids expected.call = true) {call : ToolCall}
    (hmet : expected.metBy call = true) : forbidden.forbids call = true := by
  obtain ⟨hservice, hoperation, hle⟩ := matchesAction_iff.mp hforbids
  obtain ⟨hservice', hoperation', hle'⟩ := matchesAction_iff.mp hmet
  exact matchesAction_iff.mpr ⟨hservice'.trans hservice, hoperation'.trans hoperation,
    itemsLe_trans hle hle'⟩

/-- A run's calls follow a contract: every expected action is called, and no call is forbidden. -/
def BenchmarkTask.Followed (task : BenchmarkTask) (calls : List ToolCall) : Prop :=
  (∀ expected ∈ task.expectedActions, ∃ call ∈ calls, expected.metBy call = true) ∧
    ∀ forbidden ∈ task.forbiddenActions, ∀ call ∈ calls, forbidden.forbids call = false

/-- No calls follow a contract that contradicts itself. -/
theorem not_followed_of_contradictory {task : BenchmarkTask} (h : task.Contradictory)
    (calls : List ToolCall) : ¬task.Followed calls := by
  rintro ⟨hmet, hnone⟩
  obtain ⟨forbidden, hforbidden, expected, hexpected, hforbids⟩ := h
  obtain ⟨call, hcall, hcallmet⟩ := hmet expected hexpected
  have hseen := forbids_of_metBy hforbids hcallmet
  rw [hnone forbidden hforbidden call hcall] at hseen
  exact absurd hseen Bool.false_ne_true

/-- **The expected actions themselves follow a contract that does not contradict itself.** -/
theorem followed_of_not_contradictory {task : BenchmarkTask} (htask : task.WellKeyed)
    (h : ¬task.Contradictory) : task.Followed (task.expectedActions.map ExpectedAction.call) := by
  refine ⟨fun expected hexpected => ?_, fun forbidden hforbidden call hcall => ?_⟩
  · have hkeys := (Json.distinctKeys_obj_iff.mp (htask.expected expected hexpected)).1
    exact ⟨expected.call, List.mem_map_of_mem hexpected,
      matchesAction_iff.mpr ⟨rfl, rfl, itemsLe_refl hkeys⟩⟩
  · obtain ⟨expected, hexpected, rfl⟩ := List.mem_map.mp hcall
    exact Bool.eq_false_iff.mpr fun hforbids =>
      h ⟨forbidden, hforbidden, expected, hexpected, hforbids⟩

/-- **A run passes** when its calls follow the contract and the expected final state is contained
in the final state. -/
theorem passed_iff [Interpreter] {task : BenchmarkTask} {calls : List ToolCall}
    {finalState : Dict String Json} :
    (scoreActions task calls finalState).passed = true ↔ task.Followed calls ∧
      Json.contained (.obj task.expectedFinalState) (.obj finalState) = true := by
  simp only [scoreActions, Bool.and_eq_true, List.isEmpty_iff, List.map_eq_nil_iff,
    List.filter_eq_nil_iff, diffFinalState_eq_nil_iff_contained]
  refine and_congr_left fun _ => and_congr ?_ ?_
  · simp
  · simp

end AgentProof
