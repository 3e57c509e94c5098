import AgentProof.Platform.Extensional
import AgentProof.Platform.Redaction

/-!
# Platform/Noninterference — what redaction hides, and what it keeps

Two payloads are stored alike exactly when they agree outside their sensitive values
(`redactValue_eq_iff`), and a payload is stored as it is exactly when its sensitive values are
masked (`redactValue_eq_self_iff`).  Both hold for Python's `==` and for identity up to the order of
keys: the proofs use of the equality that it is extensional.
-/

open Machinery

namespace AgentProof

/-! ## Agreement outside the sensitive values -/

/-- **The values agree**, but for what stands under sensitive keys: the same keys, the same lengths
of lists, and equal scalars. -/
inductive AgreeOutside (E : Json → Json → Prop) : Json → Json → Prop where
  | scalar {a b : Json} (ha : a.scalar = true) (hb : b.scalar = true) (heq : E a b) :
      AgreeOutside E a b
  | arr {xs ys : List Json} (hlength : xs.length = ys.length)
      (hitems : ∀ (i : ℕ) (a b : Json), xs[i]? = some a → ys[i]? = some b → AgreeOutside E a b) :
      AgreeOutside E (.arr xs) (.arr ys)
  | obj {fs gs : Dict String Json} (hkeys : ∀ k, Dict.has fs k = Dict.has gs k)
      (hvalues : ∀ (k : String) (a b : Json), isSensitive k = false → Dict.get? fs k = some a →
        Dict.get? gs k = some b → AgreeOutside E a b) :
      AgreeOutside E (.obj fs) (.obj gs)

/-- **Every sensitive value is the mark.** -/
inductive Masked : Json → Prop where
  | scalar {j : Json} (hj : j.scalar = true) : Masked j
  | arr {items : List Json} (hitems : ∀ j ∈ items, Masked j) : Masked (.arr items)
  | obj {fields : Dict String Json}
      (hsensitive : ∀ k j, isSensitive k = true → Dict.get? fields k = some j → j = .str redacted)
      (hvalues : ∀ k j, isSensitive k = false → Dict.get? fields k = some j → Masked j) :
      Masked (.obj fields)

/-! ## One level of redaction -/

theorem redactValue_of_scalar {j : Json} (h : j.scalar = true) : redactValue j = j := by
  cases j with
  | arr items => exact absurd h (by simp [Json.scalar])
  | obj fields => exact absurd h (by simp [Json.scalar])
  | _ => rfl

theorem scalar_redactValue (j : Json) : (redactValue j).scalar = j.scalar := by cases j <;> rfl

theorem redactItems_eq_map (items : List Json) : redactItems items = items.map redactValue := by
  induction items with
  | nil => rfl
  | cons j js ih => rw [redactItems, ih, List.map_cons]

/-- Redaction keeps the keys. -/
theorem has_redactPayload (payload : Dict String Json) (key : String) :
    Dict.has (redactPayload payload) key = Dict.has payload key := by
  rw [Dict.has, Dict.has, get?_redactPayload, Option.isSome_map]

/-- What stands under an innocent key is redacted. -/
theorem get?_redactPayload_of_innocent (payload : Dict String Json) {key : String}
    (h : isSensitive key = false) :
    Dict.get? (redactPayload payload) key = (Dict.get? payload key).map redactValue := by
  simp [get?_redactPayload, h]

/-- What stands under a sensitive key is the mark. -/
theorem get?_redactPayload_of_sensitive (payload : Dict String Json) {key : String}
    (h : isSensitive key = true) :
    Dict.get? (redactPayload payload) key =
      (Dict.get? payload key).map fun _ => .str redacted := by
  simp [get?_redactPayload, h]

/-- Only a list is redacted to a list. -/
theorem exists_arr_of_redactValue {j : Json} {items : List Json} (h : redactValue j = .arr items) :
    ∃ items', j = .arr items' := by
  cases j with
  | arr items' => exact ⟨items', rfl⟩
  | _ => simp [redactValue] at h

/-- Only an object is redacted to an object. -/
theorem exists_obj_of_redactValue {j : Json} {fields : Dict String Json}
    (h : redactValue j = .obj fields) : ∃ fields' : Dict String Json, j = .obj fields' := by
  cases j with
  | obj fields' => exact ⟨fields', rfl⟩
  | _ => simp [redactValue] at h

theorem isSome_eq_of_rel {α β : Type} {R : α → β → Prop} {a : Option α} {b : Option β}
    (h : Option.Rel R a b) : a.isSome = b.isSome := by
  cases h <;> rfl

section

variable {E : Json → Json → Prop} (hE : Json.Extensional E)
include hE

/-! ## Nothing leaks -/

/-- **Values that agree outside the sensitive ones are stored alike.** -/
theorem AgreeOutside.redactValue_eq {x y : Json} (h : AgreeOutside E x y) :
    E (redactValue x) (redactValue y) := by
  induction h with
  | scalar ha hb heq => rwa [redactValue_of_scalar ha, redactValue_of_scalar hb]
  | @arr xs ys hlength _ ih =>
    refine hE.arr_iff.mpr ?_
    rw [redactItems_eq_map, redactItems_eq_map, List.forall₂_map_left_iff,
      List.forall₂_map_right_iff, List.forall₂_iff_get]
    refine ⟨hlength, fun i hi hi' => ?_⟩
    exact ih i _ _ (List.getElem?_eq_getElem hi) (List.getElem?_eq_getElem hi')
  | @obj fs gs hkeys _ ih =>
    refine hE.obj_iff.mpr fun k => ?_
    change Option.Rel E (Dict.get? (redactPayload fs) k) (Dict.get? (redactPayload gs) k)
    have hkey := hkeys k
    rw [get?_redactPayload, get?_redactPayload]
    rw [Dict.has, Dict.has] at hkey
    cases hf : Dict.get? fs k with
    | none =>
      cases hg : Dict.get? gs k with
      | none => exact .none
      | some b => simp [hf, hg] at hkey
    | some a =>
      cases hg : Dict.get? gs k with
      | none => simp [hf, hg] at hkey
      | some b =>
        refine .some ?_
        by_cases hsensitive : isSensitive k = true
        · simp only [hsensitive, if_true]
          exact hE.str_iff.mpr rfl
        · simp only [if_neg hsensitive]
          exact ih k a b (by simpa using hsensitive) hf hg

/-! ## Nothing else is hidden -/

/-- **Values that are stored alike agree outside the sensitive ones.** -/
theorem agreeOutside_of_redactValue_eq (x : Json) :
    ∀ {y : Json}, E (redactValue x) (redactValue y) → AgreeOutside E x y := by
  induction x using Json.induct with
  | scalar j hj =>
    intro y h
    have hy : y.scalar = true := by
      rw [← scalar_redactValue, ← hE.scalar_eq h, scalar_redactValue, hj]
    rw [redactValue_of_scalar hj, redactValue_of_scalar hy] at h
    exact .scalar hj hy h
  | arr items ih =>
    intro y h
    have harr : E (.arr (redactItems items)) (redactValue y) := h
    obtain ⟨_, hy⟩ := hE.exists_arr harr
    obtain ⟨ys, rfl⟩ := exists_arr_of_redactValue hy
    have h : E (.arr (redactItems items)) (.arr (redactItems ys)) := h
    rw [hE.arr_iff, redactItems_eq_map, redactItems_eq_map, List.forall₂_map_left_iff,
      List.forall₂_map_right_iff, List.forall₂_iff_get] at h
    obtain ⟨hlength, hitems⟩ := h
    refine .arr hlength fun i a b ha hb => ?_
    obtain ⟨hi, rfl⟩ := List.getElem?_eq_some_iff.mp ha
    obtain ⟨hi', rfl⟩ := List.getElem?_eq_some_iff.mp hb
    exact ih _ (List.getElem_mem hi) (hitems i hi hi')
  | obj fields ih =>
    intro y h
    have hobj : E (.obj (redactFields fields)) (redactValue y) := h
    obtain ⟨_, hy⟩ := hE.exists_obj hobj
    obtain ⟨gs, rfl⟩ := exists_obj_of_redactValue hy
    have hread : ∀ k, Option.Rel E (Dict.get? (redactPayload fields) k)
        (Dict.get? (redactPayload gs) k) := hE.obj_iff.mp h
    refine .obj (fun k => ?_) fun k a b hk ha hb => ?_
    · rw [← has_redactPayload fields, ← has_redactPayload gs]
      exact isSome_eq_of_rel (hread k)
    · have hread := hread k
      rw [get?_redactPayload_of_innocent _ hk, get?_redactPayload_of_innocent _ hk, ha, hb,
        Option.map_some, Option.map_some, Option.rel_some_some] at hread
      exact ih k a ha hread

/-- **Two values are stored alike exactly when they agree outside the sensitive ones.** -/
theorem redactValue_eq_iff {x y : Json} : E (redactValue x) (redactValue y) ↔ AgreeOutside E x y :=
  ⟨agreeOutside_of_redactValue_eq hE x, fun h => h.redactValue_eq hE⟩

/-! ## What is stored as it is -/

omit hE in
/-- A masked value is stored as it is. -/
theorem Masked.redactValue_eq (hrefl : ∀ j, E j j) (hE : Json.Extensional E) {j : Json}
    (h : Masked j) : E (redactValue j) j := by
  induction h with
  | scalar hj =>
    rw [redactValue_of_scalar hj]
    exact hrefl _
  | @arr items _ ih =>
    refine hE.arr_iff.mpr ?_
    rw [redactItems_eq_map, List.forall₂_map_left_iff, List.forall₂_same]
    exact ih
  | @obj fields hsensitive _ ih =>
    refine hE.obj_iff.mpr fun k => ?_
    change Option.Rel E (Dict.get? (redactPayload fields) k) (Dict.get? fields k)
    rw [get?_redactPayload]
    cases hread : Dict.get? fields k with
    | none => exact .none
    | some v =>
      refine .some ?_
      by_cases hk : isSensitive k = true
      · simp only [hk, if_true]
        exact hE.str_iff.mpr (hsensitive k v hk hread)
      · simp only [if_neg hk]
        exact ih k v (by simpa using hk) hread

/-- A value that is stored as it is, is masked. -/
theorem masked_of_redactValue_eq (x : Json) : E (redactValue x) x → Masked x := by
  induction x using Json.induct with
  | scalar j hj => exact fun _ => .scalar hj
  | arr items ih =>
    intro h
    have h : E (.arr (redactItems items)) (.arr items) := h
    rw [hE.arr_iff, redactItems_eq_map, List.forall₂_map_left_iff, List.forall₂_same] at h
    exact .arr fun j hj => ih j hj (h j hj)
  | obj fields ih =>
    intro h
    have hread : ∀ k, Option.Rel E (Dict.get? (redactPayload fields) k) (Dict.get? fields k) :=
      hE.obj_iff.mp h
    refine .obj (fun k j hk hj => ?_) fun k j hk hj => ?_
    · have hread := hread k
      rw [get?_redactPayload_of_sensitive _ hk, hj, Option.map_some, Option.rel_some_some] at hread
      exact hE.str_iff.mp hread
    · have hread := hread k
      rw [get?_redactPayload_of_innocent _ hk, hj, Option.map_some, Option.rel_some_some] at hread
      exact ih k j hj hread

/-- **A value is stored as it is exactly when its sensitive values are masked.** -/
theorem redactValue_eq_self_iff (hrefl : ∀ j, E j j) {x : Json} :
    E (redactValue x) x ↔ Masked x :=
  ⟨masked_of_redactValue_eq hE x, fun h => h.redactValue_eq hrefl hE⟩

end

/-! ## Payloads -/

/-- **Redaction leaks nothing and hides nothing else.**  Payloads are stored alike, by `==` and up to
the order of keys, exactly when they agree outside their sensitive values; redacting again changes
nothing; and a payload is stored as it is exactly when its sensitive values are masked. -/
theorem redactPayload_exact (x y : Dict String Json) :
    (Json.Alike (.obj (redactPayload x)) (.obj (redactPayload y)) ↔
      AgreeOutside Json.Alike (.obj x) (.obj y)) ∧
    (Json.Same (.obj (redactPayload x)) (.obj (redactPayload y)) ↔
      AgreeOutside Json.Same (.obj x) (.obj y)) ∧
    redactPayload (redactPayload x) = redactPayload x ∧
    (Json.Alike (.obj (redactPayload x)) (.obj x) ↔ Masked (.obj x)) ∧
    (Json.Same (.obj (redactPayload x)) (.obj x) ↔ Masked (.obj x)) :=
  ⟨redactValue_eq_iff Json.alike_extensional (x := .obj x) (y := .obj y),
    redactValue_eq_iff Json.same_extensional (x := .obj x) (y := .obj y),
    redactFields_redactFields x,
    redactValue_eq_self_iff Json.alike_extensional Json.Alike.refl (x := .obj x),
    redactValue_eq_self_iff Json.same_extensional Json.Same.refl (x := .obj x)⟩

example : redactPayload [("result", .arr [.obj [("Name", .str "Ada"), ("id", .int 7)]])] =
    [("result", .arr [.obj [("Name", .str redacted), ("id", .int 7)]])] := by decide

end AgentProof
