import Mathlib.Algebra.Order.Group.Int
import Mathlib.Tactic.Basic

/-!
# Python/Random — `random.Random`

A seeded generator is a function of the seed and of what was asked of it before.  Nothing but the
range of an answer is known.
-/

namespace AgentProof

/-- The generators of the standard library, one for each seed. -/
class RandomGenerator where
  /-- `Random(seed)._randbelow(n)`, after the ranges that were asked for before -/
  below : (seed : ℤ) → (asked : List ℕ) → (n : ℕ) → ℕ
  below_lt : ∀ seed asked {n}, 0 < n → below seed asked n < n

variable [RandomGenerator]

/-- `rng.randint(low, high)` -/
def randint (seed : ℤ) (asked : List ℕ) (low high : ℤ) : ℤ :=
  low + RandomGenerator.below seed asked (high + 1 - low).toNat

/-- **A draw is in the range asked for.** -/
theorem randint_mem (seed : ℤ) (asked : List ℕ) {low high : ℤ} (h : low ≤ high) :
    low ≤ randint seed asked low high ∧ randint seed asked low high ≤ high := by
  have hlt := RandomGenerator.below_lt seed asked (n := (high + 1 - low).toNat) (by omega)
  rw [randint]
  omega

/-- `rng.choice(items)`: there has to be an item. -/
def choice {α : Type} (seed : ℤ) (asked : List ℕ) (items : List α) (h : items ≠ []) : α :=
  items.get ⟨RandomGenerator.below seed asked items.length,
    RandomGenerator.below_lt seed asked (List.length_pos_iff.mpr h)⟩

/-- A choice is one of the items. -/
theorem choice_mem {α : Type} (seed : ℤ) (asked : List ℕ) (items : List α) (h : items ≠ []) :
    choice seed asked items h ∈ items := List.get_mem _ _

/-- A generator to evaluate with: it always answers with the least of the range. -/
abbrev leastDraws : RandomGenerator where
  below _ _ _ := 0
  below_lt _ _ _ h := h

end AgentProof
