import AgentProof.Platform.Dumps
import AgentProof.Python.Congruence

/-!
# Platform/Extensional — equalities that look at the readings

Python's `==` and the identity up to the order of keys differ on scalars only (`True == 1`).  Both are
*extensional*: two lists are equal when their items are, two objects when they read equal values
under the same keys.  What follows from that alone is proved once, for either.
-/

open Machinery

namespace AgentProof

namespace Json

/-! ## Induction over what is read -/

mutual

/-- **Induction on a value**: on the items of a list, on what an object reads under its keys. -/
@[elab_as_elim] theorem induct {motive : Json → Prop}
    (scalar : ∀ j : Json, j.scalar = true → motive j)
    (arr : ∀ items : List Json, (∀ j ∈ items, motive j) → motive (.arr items))
    (obj : ∀ fields : Dict String Json, (∀ k j, Dict.get? fields k = some j → motive j) →
      motive (.obj fields)) : ∀ j : Json, motive j
  | .arr items => arr items (inductItems scalar arr obj items)
  | .obj fields => obj fields fun _ _ hread =>
    inductFields scalar arr obj fields _ (Dict.mem_of_get?_eq_some hread)
  | .null => scalar _ rfl
  | .bool _ => scalar _ rfl
  | .int _ => scalar _ rfl
  | .float _ => scalar _ rfl
  | .str _ => scalar _ rfl

theorem inductItems {motive : Json → Prop} (scalar : ∀ j : Json, j.scalar = true → motive j)
    (arr : ∀ items : List Json, (∀ j ∈ items, motive j) → motive (.arr items))
    (obj : ∀ fields : Dict String Json, (∀ k j, Dict.get? fields k = some j → motive j) →
      motive (.obj fields)) : ∀ items : List Json, ∀ j ∈ items, motive j
  | [], _, hmem => absurd hmem (by simp)
  | j :: js, _, hmem => by
    rcases List.mem_cons.mp hmem with heq | hmem
    · exact heq ▸ induct scalar arr obj j
    · exact inductItems scalar arr obj js _ hmem

theorem inductFields {motive : Json → Prop} (scalar : ∀ j : Json, j.scalar = true → motive j)
    (arr : ∀ items : List Json, (∀ j ∈ items, motive j) → motive (.arr items))
    (obj : ∀ fields : Dict String Json, (∀ k j, Dict.get? fields k = some j → motive j) →
      motive (.obj fields)) : ∀ fields : List (String × Json), ∀ e ∈ fields, motive e.2
  | [], _, hmem => absurd hmem (by simp)
  | (_, j) :: fields, _, hmem => by
    rcases List.mem_cons.mp hmem with heq | hmem
    · exact heq ▸ induct scalar arr obj j
    · exact inductFields scalar arr obj fields _ hmem

end

/-! ## Extensional equalities -/

/-- **An equality of JSON values** that looks into lists and objects. -/
structure Extensional (E : Json → Json → Prop) : Prop where
  scalar_eq : ∀ {a b : Json}, E a b → a.scalar = b.scalar
  arr_iff : ∀ {xs ys : List Json}, E (.arr xs) (.arr ys) ↔ List.Forall₂ E xs ys
  obj_iff : ∀ {fs gs : Dict String Json},
    E (.obj fs) (.obj gs) ↔ ∀ k, Option.Rel E (Dict.get? fs k) (Dict.get? gs k)
  arr_ne_obj : ∀ {xs : List Json} {fs : Dict String Json},
    ¬ E (.arr xs) (.obj fs) ∧ ¬ E (.obj fs) (.arr xs)
  str_iff : ∀ {s : String} {b : Json}, E (.str s) b ↔ b = .str s

theorem scalar_canon (j : Json) : j.canon.scalar = j.scalar := by
  cases j with
  | float x => rw [canon_float]; split <;> rfl
  | _ => simp [canon, scalar]

theorem scalar_sortKeys (j : Json) : j.sortKeys.scalar = j.scalar := by
  cases j <;> simp [sortKeys, scalar]

/-- **Python's `==` is extensional.** -/
theorem alike_extensional : Extensional Alike where
  scalar_eq {a b} h := by rw [← scalar_canon a, h, scalar_canon b]
  arr_iff := by
    intro xs ys
    rw [Alike, canon_arr_eq_iff, ← List.forall₂_eq_eq_eq, List.forall₂_map_left_iff,
      List.forall₂_map_right_iff]
    rfl
  obj_iff := by
    intro fs gs
    rw [alike_obj_iff]
    refine forall_congr' fun k => ?_
    rcases Dict.get? fs k with _ | a <;> rcases Dict.get? gs k with _ | b <;>
      simp [AlikeReading]
  arr_ne_obj := by simp [Alike, canon]
  str_iff := by
    intro s b
    rw [Alike, canon]
    exact ⟨fun h => canon_eq_str_iff.mp h.symm, fun h => by rw [h, canon]⟩

/-- **Identity up to the order of keys is extensional.** -/
theorem same_extensional : Extensional Same where
  scalar_eq {a b} h := by rw [← scalar_sortKeys a, h, scalar_sortKeys b]
  arr_iff := same_arr_iff
  obj_iff := same_obj_iff
  arr_ne_obj := by simp [Same, sortKeys]
  str_iff := by
    intro s b
    cases b <;> simp [Same, sortKeys, eq_comm]

namespace Extensional

variable {E : Json → Json → Prop} (hE : Extensional E)
include hE

/-- Only a list equals a list. -/
theorem exists_arr {xs : List Json} {b : Json} (h : E (.arr xs) b) : ∃ ys, b = .arr ys := by
  have hscalar : false = b.scalar := hE.scalar_eq h
  cases b with
  | arr ys => exact ⟨ys, rfl⟩
  | obj fs => exact absurd h hE.arr_ne_obj.1
  | _ => exact absurd hscalar (by simp [scalar])

/-- Only an object equals an object. -/
theorem exists_obj {fs : Dict String Json} {b : Json} (h : E (.obj fs) b) :
    ∃ gs : Dict String Json, b = .obj gs := by
  have hscalar : false = b.scalar := hE.scalar_eq h
  cases b with
  | obj gs => exact ⟨gs, rfl⟩
  | arr ys => exact absurd h hE.arr_ne_obj.2
  | _ => exact absurd hscalar (by simp [scalar])

/-- **The order of the keys makes no difference**, at any depth. -/
theorem sortKeys (hrefl : ∀ j, E j j) (j : Json) : E j.sortKeys j := by
  induction j using induct with
  | scalar j hj =>
    cases j <;> first | exact hrefl _ | simp [scalar] at hj
  | arr items ih =>
    rw [Json.sortKeys, sortKeysItems_eq_map, hE.arr_iff, List.forall₂_map_left_iff,
      List.forall₂_same]
    exact ih
  | obj fields ih =>
    rw [Json.sortKeys, hE.obj_iff]
    intro k
    rw [Dict.get?_sorted, sortKeysFields_eq_map, Dict.get?_map]
    cases hread : Dict.get? fields k with
    | none => exact .none
    | some j => exact .some (ih k j hread)

/-- Two objects with the same keys, in the same order, are equal when their values are. -/
theorem obj_iff_forall₂ {fs gs : Dict String Json} (hkeys : fs.map Prod.fst = gs.map Prod.fst)
    (hnodup : (fs.map Prod.fst).Nodup) :
    E (.obj fs) (.obj gs) ↔ List.Forall₂ E (fs.map Prod.snd) (gs.map Prod.snd) := by
  rw [hE.obj_iff]
  induction fs generalizing gs with
  | nil =>
    obtain rfl : gs = [] := List.map_eq_nil_iff.mp hkeys.symm
    exact iff_of_true (fun _ => .none) .nil
  | cons e fs ih =>
    obtain ⟨e', gs, rfl⟩ : ∃ e' gs', gs = e' :: gs' :=
      List.exists_cons_of_ne_nil (by rintro rfl; simp at hkeys)
    obtain ⟨k, v⟩ := e
    obtain ⟨k', w⟩ := e'
    simp only [List.map_cons, List.cons.injEq, List.nodup_cons] at hkeys hnodup
    obtain ⟨rfl, hkeys⟩ := hkeys
    rw [List.map_cons, List.map_cons, List.forall₂_cons, ← ih hkeys hnodup.2]
    constructor
    · intro h
      refine ⟨by simpa using h k, fun l => ?_⟩
      by_cases hl : k = l
      · subst hl
        rw [Dict.get?_eq_none_iff.mpr hnodup.1, Dict.get?_eq_none_iff.mpr (hkeys ▸ hnodup.1)]
        exact .none
      · have := h l
        rwa [Dict.get?_cons_of_ne hl, Dict.get?_cons_of_ne hl] at this
    · rintro ⟨hv, hrest⟩ l
      rw [Dict.get?_cons, Dict.get?_cons]
      split_ifs
      · exact .some hv
      · exact hrest l

end Extensional

/-- A value is `==` to itself with its keys in order. -/
theorem alike_sortKeys (j : Json) : Alike j.sortKeys j := alike_extensional.sortKeys Alike.refl j

end Json

end AgentProof
