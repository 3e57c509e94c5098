import AgentProof.Machinery.Dict
import AgentProof.Python.Floats
import Mathlib.Data.Rat.Defs
import Mathlib.Data.String.Basic
import Mathlib.Data.List.Nodup

/-!
# Python/Json — the JSON values the platform passes around

The values `json.loads` yields from a JSON text: a Python `dict[str, Any]` of them is a
`Dict String Json`.  Integers are unbounded.  `Json F` has the floats of `F`: those of JSON values are
finite (`Json`), those a caller in Python can pass are any (`Json AnyFloat`).

Python's `==` is coarser than identity: `True == 1 == 1.0`, and a `dict` forgets the order of its
keys.  `canon` picks one value in each class, so what containers compare their items by (`pySame`)
is an equivalence by construction.  `pyEq` is the same, but for a `NaN`.
-/

open Machinery

namespace AgentProof

/-- A JSON value, as Python holds it. -/
inductive Json (F : Type := PyFloat) where
  | null
  | bool (b : Bool)
  | int (n : ℤ)
  | float (x : F)
  | str (s : String)
  | arr (items : List (Json F))
  | obj (fields : List (String × Json F))

namespace Json

variable {F : Type}

/-! ## Identity of values is decidable -/

section

variable [DecidableEq F]

mutual

/-- Identity of two values. -/
def eqb : Json F → Json F → Bool
  | .null, .null => true
  | .bool a, .bool b => a = b
  | .int a, .int b => a = b
  | .float a, .float b => a = b
  | .str a, .str b => a = b
  | .arr a, .arr b => eqbItems a b
  | .obj a, .obj b => eqbFields a b
  | _, _ => false

/-- Identity of two lists of values. -/
def eqbItems : List (Json F) → List (Json F) → Bool
  | [], [] => true
  | x :: xs, y :: ys => eqb x y && eqbItems xs ys
  | _, _ => false

/-- Identity of two lists of fields. -/
def eqbFields : List (String × Json F) → List (String × Json F) → Bool
  | [], [] => true
  | (k, x) :: xs, (l, y) :: ys => k = l && eqb x y && eqbFields xs ys
  | _, _ => false

end

mutual

theorem eqb_iff : ∀ a b : Json F, eqb a b = true ↔ a = b
  | .arr a, b => by cases b <;> simp [eqb, eqbItems_iff a]
  | .obj a, b => by cases b <;> simp [eqb, eqbFields_iff a]
  | .null, b | .bool _, b | .int _, b | .float _, b | .str _, b => by cases b <;> simp [eqb]

theorem eqbItems_iff : ∀ a b : List (Json F), eqbItems a b = true ↔ a = b
  | [], b => by cases b <;> simp [eqbItems]
  | x :: xs, b => by cases b <;> simp [eqbItems, eqb_iff x, eqbItems_iff xs]

theorem eqbFields_iff : ∀ a b : List (String × Json F), eqbFields a b = true ↔ a = b
  | [], b => by cases b <;> simp [eqbFields]
  | (k, x) :: xs, b => by
    cases b <;> simp [eqbFields, eqb_iff x, eqbFields_iff xs, Prod.ext_iff]

end

instance : DecidableEq (Json F) := fun a b => decidable_of_iff _ (eqb_iff a b)

end

/-! ## Python's `==` -/

section

variable [Floats F]

mutual

/-- The representative of a value under `==`: booleans and integral floats become integers, the
keys of an object are sorted. -/
def canon : Json F → Json F
  | .bool b => .int (if b then 1 else 0)
  | .float x => (Floats.any x).integer?.elim (.float x) .int
  | .arr items => .arr (canonItems items)
  | .obj fields => .obj (Dict.sorted (canonFields fields))
  | .null => .null
  | .int n => .int n
  | .str s => .str s

/-- `canon` of every item. -/
def canonItems : List (Json F) → List (Json F)
  | [] => []
  | j :: js => canon j :: canonItems js

/-- `canon` of every field. -/
def canonFields : List (String × Json F) → List (String × Json F)
  | [] => []
  | (k, j) :: fs => (k, canon j) :: canonFields fs

end

/-- A `NaN`. -/
def isNan : Json F → Bool
  | .float x => (Floats.any x).isNan
  | _ => false

theorem canonItems_eq_map : ∀ items : List (Json F), canonItems items = items.map canon
  | [] => rfl
  | j :: js => by rw [canonItems, canonItems_eq_map js, List.map_cons]

theorem canonFields_eq_map :
    ∀ fields : List (String × Json F), canonFields fields = fields.map fun e => (e.1, e.2.canon)
  | [] => rfl
  | (k, j) :: fs => by rw [canonFields, canonFields_eq_map fs, List.map_cons]

/-- **Two lists are `==` when their items are, in order.** -/
theorem canon_arr_eq_iff {xs ys : List (Json F)} :
    canon (.arr xs) = canon (.arr ys) ↔ xs.map canon = ys.map canon := by
  simp only [canon, arr.injEq, canonItems_eq_map]

/-- **Two objects are `==` when every key reads values that are**: the order of the keys plays no
part. -/
theorem canon_obj_eq_iff {fs gs : Dict String (Json F)} :
    canon (.obj fs) = canon (.obj gs) ↔
      ∀ k, (Dict.get? fs k).map canon = (Dict.get? gs k).map canon := by
  simp only [canon, obj.injEq, Dict.sorted_eq_sorted_iff, canonFields_eq_map, Dict.get?_map]

/-- A string is `==` to itself only. -/
@[simp] theorem canon_eq_str_iff {j : Json F} {s : String} : j.canon = .str s ↔ j = .str s := by
  cases j with
  | float x => rw [canon]; cases (Floats.any x).integer? <;> simp
  | _ => simp [canon]

/-- `None` is `==` to itself only. -/
@[simp] theorem canon_eq_null_iff {j : Json F} : j.canon = .null ↔ j = .null := by
  cases j with
  | float x => rw [canon]; cases (Floats.any x).integer? <;> simp
  | _ => simp [canon]

/-- Only a list is `==` to a list. -/
theorem canon_eq_arr {j : Json F} {xs : List (Json F)} (h : j.canon = .arr xs) :
    ∃ ys, j = .arr ys := by
  cases j with
  | float x => rw [canon] at h; cases hx : (Floats.any x).integer? <;> simp [hx] at h
  | arr ys => exact ⟨ys, rfl⟩
  | _ => simp [canon] at h

/-- Only an object is `==` to an object. -/
theorem canon_eq_obj {j : Json F} {fs : List (String × Json F)} (h : j.canon = .obj fs) :
    ∃ gs, j = .obj gs := by
  cases j with
  | float x => rw [canon] at h; cases hx : (Floats.any x).integer? <;> simp [hx] at h
  | obj gs => exact ⟨gs, rfl⟩
  | _ => simp [canon] at h

section

variable [DecidableEq F]

/-- `a is b or a == b`, by which Python's containers compare their items. -/
def pySame (a b : Json F) : Bool := a.canon = b.canon

/-- Python's `a == b`. -/
def pyEq (a b : Json F) : Bool := !a.isNan && pySame a b

@[simp] theorem pySame_iff {a b : Json F} : pySame a b = true ↔ a.canon = b.canon :=
  decide_eq_true_iff

/-- **A `NaN` is `==` to nothing.** -/
theorem pyEq_iff_of_floats {a b : Json F} :
    pyEq a b = true ↔ a.isNan = false ∧ a.canon = b.canon := by
  rw [pyEq, Bool.and_eq_true, Bool.not_eq_true', pySame_iff]

omit [DecidableEq F] in
theorem isNan_canon (a : Json F) : a.canon.isNan = a.isNan := by
  cases a with
  | float x =>
    rw [canon, isNan]
    cases hx : Floats.any x with
    | finite y =>
      rw [AnyFloat.integer?]
      split_ifs <;> simp [isNan, AnyFloat.isNan, hx]
    | inf negative => simp [AnyFloat.integer?, isNan, hx]
    | nan object => simp [AnyFloat.integer?, isNan, hx]
  | _ => simp [canon, isNan]

/-- `==` is symmetric: what is the same as a `NaN` is one. -/
theorem pyEq_comm (a b : Json F) : pyEq a b = pyEq b a := by
  rw [Bool.eq_iff_iff, pyEq_iff_of_floats, pyEq_iff_of_floats]
  constructor <;> rintro ⟨hnan, hcanon⟩ <;>
    exact ⟨by rw [← isNan_canon, ← hcanon, isNan_canon, hnan], hcanon.symm⟩

/-- A string is `==` to itself only. -/
@[simp] theorem pyEq_str_iff {a : Json F} {s : String} : pyEq a (.str s) = true ↔ a = .str s := by
  rw [pyEq_iff_of_floats, show canon (F := F) (.str s) = .str s from canon.eq_7 s,
    canon_eq_str_iff]
  refine and_iff_right_of_imp ?_
  rintro rfl
  rfl

end

end

/-- A finite float is no `NaN`. -/
theorem isNan_eq_false (a : Json) : a.isNan = false := by
  cases a <;> rfl

@[simp] theorem pyEq_iff {a b : Json} : pyEq a b = true ↔ a.canon = b.canon := by
  rw [pyEq_iff_of_floats, isNan_eq_false, eq_self_iff_true, true_and]

@[simp] theorem pyEq_refl (a : Json) : pyEq a a = true := pyEq_iff.mpr rfl

/-- A finite float is what it is equal to. -/
theorem canon_float (x : PyFloat) :
    canon (.float x) = if x.value.den = 1 then .int x.value.num else .float (.fin x.value) := by
  rw [canon]
  change ((if x.value.den = 1 then some x.value.num else none).elim _ _ : Json) = _
  split_ifs with h
  · rfl
  · cases x with
    | negZero => exact absurd rfl h
    | fin q => rfl

/-! ## Distinct keys

A Python dictionary repeats no key. -/

mutual

/-- No object of a value, at any depth, repeats a key. -/
def distinctKeys : Json F → Bool
  | .arr items => distinctKeysItems items
  | .obj fields => decide (fields.map Prod.fst).Nodup && distinctKeysFields fields
  | _ => true

/-- `distinctKeys` of every item. -/
def distinctKeysItems : List (Json F) → Bool
  | [] => true
  | j :: js => j.distinctKeys && distinctKeysItems js

/-- `distinctKeys` of every field. -/
def distinctKeysFields : List (String × Json F) → Bool
  | [] => true
  | (_, j) :: fields => j.distinctKeys && distinctKeysFields fields

end

theorem distinctKeysFields_iff : ∀ {fields : List (String × Json F)},
    distinctKeysFields fields = true ↔ ∀ e ∈ fields, e.2.distinctKeys = true
  | [] => by simp [distinctKeysFields]
  | (k, j) :: fields => by simp [distinctKeysFields, distinctKeysFields_iff]

theorem distinctKeys_obj_iff {fields : Dict String (Json F)} :
    (obj fields).distinctKeys = true ↔
      (fields.map Prod.fst).Nodup ∧ ∀ e ∈ fields, e.2.distinctKeys = true := by
  rw [distinctKeys, Bool.and_eq_true, decide_eq_true_eq, distinctKeysFields_iff]

/-- What a key reads of a value without repeated keys has none either. -/
theorem distinctKeys_of_get? {fields : Dict String (Json F)} (h : (obj fields).distinctKeys = true)
    {k : String} {v : Json F} (hread : Dict.get? fields k = some v) : v.distinctKeys = true :=
  (distinctKeys_obj_iff.mp h).2 (k, v) (Dict.mem_of_get?_eq_some hread)

/-- **An assignment repeats no key.** -/
theorem distinctKeys_set {fields : Dict String (Json F)} (h : (obj fields).distinctKeys = true)
    (k : String) {v : Json F} (hv : v.distinctKeys = true) :
    (obj (Dict.set fields k v)).distinctKeys = true := by
  rw [distinctKeys_obj_iff] at h ⊢
  refine ⟨Dict.nodup_keys_set h.1 k v, fun e he => ?_⟩
  rcases Dict.mem_set he with rfl | hmem
  · exact hv
  · exact h.2 e hmem

/-! ## Hashing, order, names -/

/-- `hash(j)` is defined: lists and dictionaries have none. -/
def hashable : Json F → Bool
  | .arr _ | .obj _ => false
  | _ => true

section

variable [Floats F]

/-- The number a value is, for `<`. -/
def number? : Json F → Option AnyFloat
  | .bool b => some (.ofInt (if b then 1 else 0))
  | .int n => some (.ofInt n)
  | .float x => some (Floats.any x).number
  | _ => none

variable [DecidableEq F]

mutual

/-- `a < b`, or `a <= b`, on representatives; `none` where Python raises `TypeError`. -/
def compareCanon (orEqual : Bool) : Json F → Json F → Option Bool
  | .str a, .str b => some (if orEqual then !decide (b < a) else decide (a < b))
  | .arr a, .arr b => compareItems orEqual a b
  | a, b => match number? a, number? b with
    | some x, some y => some (if orEqual then x.le y else x.lt y)
    | _, _ => none

/-- Lists compare at the first place where they differ. -/
def compareItems (orEqual : Bool) : List (Json F) → List (Json F) → Option Bool
  | [], [] => some orEqual
  | [], _ :: _ => some true
  | _ :: _, [] => some false
  | x :: xs, y :: ys => if x = y then compareItems orEqual xs ys else compareCanon orEqual x y

end

/-- Python's `a < b`.  A comparison sees its operands only through `==`. -/
def lt? (a b : Json F) : Option Bool := compareCanon false a.canon b.canon

/-- Python's `a <= b` -/
def le? (a b : Json F) : Option Bool := compareCanon true a.canon b.canon

/-- Two integers compare as integers. -/
@[simp] theorem lt?_int_int (a b : ℤ) :
    lt? (F := F) (.int a) (.int b) = some (decide (a < b)) := by
  simp [lt?, compareCanon, canon, number?, AnyFloat.ofInt, AnyFloat.lt, PyFloat.value]

end

/-- The exact number a value is. -/
def num? : Json → Option ℚ
  | .bool b => some (if b then 1 else 0)
  | .int n => some n
  | .float x => some x.value
  | _ => none

/-- The type's `__name__`. -/
def typeName : Json F → String
  | .null => "NoneType"
  | .bool _ => "bool"
  | .int _ => "int"
  | .float _ => "float"
  | .str _ => "str"
  | .arr _ => "list"
  | .obj _ => "dict"

end Json

example : Json.pyEq (F := PyFloat) (.obj [("a", .bool true), ("b", .null)])
    (.obj [("b", .null), ("a", .float (.fin 1))]) = true := by decide

end AgentProof
