import Mathlib.Algebra.Order.Ring.Cast
import Mathlib.Algebra.Order.Ring.Rat
import Mathlib.Data.Int.Log
import Mathlib.Data.Rat.Floor

/-!
# Python/Floats — the floats

A finite float is its exact value, with `-0.0` kept apart because it prints differently.  JSON values
have no other floats (`PyFloat`); Python, and its `json`, has the infinities and the `NaN`s too
(`AnyFloat`).

A `NaN` is an object: it is `==` to nothing, but a container finds it by `is`, so a list that holds
one is `==` to itself.  What is said over `[Floats F]` holds with and without them.
-/

namespace AgentProof

/-! ## Finite floats -/

/-- A finite Python `float`. -/
inductive PyFloat where
  | negZero
  | fin (q : ℚ)
  deriving DecidableEq

/-- The exact value of a float. -/
def PyFloat.value : PyFloat → ℚ
  | .negZero => 0
  | .fin q => q

/-! ## Rounding -/

/-- The nearest integer, the even one of two. -/
def roundHalfEven (q : ℚ) : ℤ :=
  if q - ⌊q⌋ < 1 / 2 ∨ q - ⌊q⌋ = 1 / 2 ∧ ⌊q⌋ % 2 = 0 then ⌊q⌋ else ⌊q⌋ + 1

/-- The nearest double to a number that is not negative and not too large for one. -/
def PyFloat.nearest (q : ℚ) : PyFloat :=
  if q = 0 then .fin 0
  else
    let exponent : ℤ := max (Int.log 2 q - 52) (-1074)
    .fin (roundHalfEven (q / 2 ^ exponent) * 2 ^ exponent)

/-- Rounding stays below an integer. -/
theorem roundHalfEven_le {q : ℚ} {n : ℤ} (h : q ≤ n) : roundHalfEven q ≤ n := by
  rw [roundHalfEven]
  have hfloor : ⌊q⌋ ≤ n := Int.cast_le.mp ((Int.floor_le q).trans h)
  split_ifs with hdown
  · exact hfloor
  · -- rounded up, the number is no integer
    have hne : ⌊q⌋ ≠ n := by
      intro heq
      have hzero : q - ⌊q⌋ ≤ 0 := by rw [heq]; linarith
      exact hdown (.inl (by linarith))
    omega

theorem roundHalfEven_nonneg {q : ℚ} (h : 0 ≤ q) : 0 ≤ roundHalfEven q := by
  have hfloor : 0 ≤ ⌊q⌋ := Int.floor_nonneg.mpr h
  rw [roundHalfEven]
  split_ifs <;> omega

/-- **The nearest double to a number up to one** is up to one. -/
theorem PyFloat.nearest_mem {q : ℚ} (h0 : 0 ≤ q) (h1 : q ≤ 1) :
    0 ≤ (nearest q).value ∧ (nearest q).value ≤ 1 := by
  rw [nearest]
  split_ifs with hq
  · exact ⟨le_refl _, zero_le_one⟩
  · have hpos : 0 < q := lt_of_le_of_ne h0 (Ne.symm hq)
    have hlog : Int.log 2 q ≤ 0 := by
      simpa using Int.log_mono_right (b := 2) hpos h1
    obtain ⟨k, hk⟩ := Int.eq_ofNat_of_zero_le (a := -max (Int.log 2 q - 52) (-1074)) (by omega)
    have hexponent : max (Int.log 2 q - 52) (-1074) = -(k : ℤ) := by omega
    have hpower : (0 : ℚ) < 2 ^ k := by positivity
    have hscaled : q / 2 ^ (-(k : ℤ)) = q * 2 ^ k := by
      rw [zpow_neg, zpow_natCast, div_inv_eq_mul]
    have hhigh : roundHalfEven (q * 2 ^ k) ≤ 2 ^ k := by
      refine roundHalfEven_le ?_
      push_cast
      exact mul_le_of_le_one_left hpower.le h1
    have hlow : 0 ≤ roundHalfEven (q * 2 ^ k) := roundHalfEven_nonneg (by positivity)
    simp only [hexponent, hscaled, value]
    rw [zpow_neg, zpow_natCast]
    refine ⟨mul_nonneg (by exact_mod_cast hlow) (by positivity), ?_⟩
    rw [← div_eq_mul_inv, div_le_one hpower]
    exact_mod_cast hhigh

/-- `x + y`, the double nearest to the sum, where the sum is not too large for one. -/
def PyFloat.add (x y : PyFloat) : PyFloat :=
  let sum := x.value + y.value
  if x = .negZero ∧ y = .negZero then .negZero
  else if 0 ≤ sum then .nearest sum
  else .fin (-(PyFloat.nearest (-sum)).value)

/-! ## All floats -/

/-- A Python `float`; a `NaN` is told from the others by the object it is. -/
inductive AnyFloat where
  | finite (x : PyFloat)
  | inf (negative : Bool)
  | nan (object : ℕ)
  deriving DecidableEq

namespace AnyFloat

/-- The integer a float is `==` to, if any. -/
def integer? : AnyFloat → Option ℤ
  | .finite x => if x.value.den = 1 then some x.value.num else none
  | .inf _ | .nan _ => none

/-- The number a float is: the two zeros are one. -/
def number : AnyFloat → AnyFloat
  | .finite x => .finite (.fin x.value)
  | .inf negative => .inf negative
  | .nan object => .nan object

/-- `math.isnan(x)` -/
def isNan : AnyFloat → Bool
  | .nan _ => true
  | .finite _ | .inf _ => false

/-- `x < y` -/
def lt : AnyFloat → AnyFloat → Bool
  | .finite x, .finite y => x.value < y.value
  | .finite _, .inf negative => !negative
  | .inf negative, .finite _ => negative
  | .inf negative, .inf negative' => negative && !negative'
  | .nan _, _ | _, .nan _ => false

/-- `x <= y` -/
def le (x y : AnyFloat) : Bool := !x.isNan && !y.isNan && !y.lt x

/-- `bool(x)` -/
def truthy : AnyFloat → Bool
  | .finite x => x.value ≠ 0
  | .inf _ | .nan _ => true

/-- `x + n`, where the sum is not too large for a double.  The sum of a `NaN` is one. -/
def addInt (x : AnyFloat) (n : ℤ) : AnyFloat :=
  match x with
  | .finite x => .finite (x.add (.fin n))
  | .inf negative => .inf negative
  | .nan object => .nan object

/-- An integer, as a number. -/
def ofInt (n : ℤ) : AnyFloat := .finite (.fin n)

theorem number_eq_of_integer? {x : AnyFloat} {n : ℤ} (h : x.integer? = some n) :
    x.number = ofInt n := by
  cases x with
  | finite x =>
    rw [integer?] at h
    split_ifs at h with hden
    obtain rfl := Option.some.inj h
    rw [number, ofInt, Rat.coe_int_num_of_den_eq_one hden]
  | inf _ => cases h
  | nan _ => cases h

@[simp] theorem isNan_number (x : AnyFloat) : x.number.isNan = x.isNan := by
  cases x <;> rfl

/-- **What is not above an integer** is at most the integer, or a `NaN`. -/
theorem ofInt_lt_eq_false_iff {x : AnyFloat} {n : ℤ} :
    (ofInt n).lt x = false ↔ x.le (ofInt n) = true ∨ x.isNan = true := by
  cases x <;> simp [le, isNan, lt, ofInt]

end AnyFloat

/-- A type of floats: some of Python's. -/
class Floats (F : Type) where
  any : F → AnyFloat
  /-- `x + n` -/
  addInt : F → ℤ → F

instance : Floats PyFloat where
  any := .finite
  addInt x n := x.add (.fin n)

instance : Floats AnyFloat where
  any := id
  addInt := .addInt

end AgentProof
