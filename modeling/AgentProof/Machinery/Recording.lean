import AgentProof.Machinery.Raising

/-!
# Machinery/Recording — a run is replayed from its record

A computation asks somebody whose answers it does not determine, and keeps a record as it goes.
`Recorder.Replays` is the triple that says the record has the answers: wherever the computation
returns, a replay that is told the same answers one by one returns the same.  An answer may be
recorded later than it is given; until then it is *owed* to the record.
-/

namespace Machinery

open Raising

variable {ε ε' S T π O α β : Type}

/-- How runs over `S` are recorded, and replayed over `T`. -/
structure Recorder (S T π O : Type) where
  /-- the part of the state that a replay shares -/
  shared : S → π
  /-- the answers that can be read off the record -/
  answers : π → List O
  /-- a replay, with the answers it is still to be told -/
  scripted : π → List O → T

namespace Recorder

/-- **The triple of record and replay**: wherever `x` returns, there are answers that make `y`
return the same; they are recorded, after those that were owed, except for those that still are. -/
def Replays (R : Recorder S T π O) (owed : List O) (x : EStateM ε S α) (y : EStateM ε' T α)
    (owes : α → List O) : Prop :=
  ∀ s a s', x s = .ok a s' → ∃ told : List O,
    R.answers (R.shared s) ++ owed ++ told = R.answers (R.shared s') ++ owes a ∧
    ∀ rest, y (R.scripted (R.shared s) (told ++ rest)) = .ok a (R.scripted (R.shared s') rest)

namespace Replays

variable {R : Recorder S T π O} {owed : List O} {x : EStateM ε S α} {y : EStateM ε' T α}
  {owes : α → List O} {owes' : β → List O}

theorem pure {a : α} (h : owed = owes a) :
    R.Replays owed (Pure.pure a : EStateM ε S α) (Pure.pure a : EStateM ε' T α) owes := by
  intro s a' s' hx
  obtain ⟨rfl, rfl⟩ := pure_eq_ok.mp hx
  exact ⟨[], by rw [List.append_nil, h], fun rest => rfl⟩

/-- A run that raises is not replayed. -/
theorem throw {e : ε} : R.Replays owed (MonadExcept.throw e : EStateM ε S α) y owes :=
  fun _ _ _ hx => absurd hx (by simp)

/-- **Replays compose**: the second part pays what the first owes. -/
theorem bind {f : α → EStateM ε S β} {g : α → EStateM ε' T β} (hxy : R.Replays owed x y owes)
    (hfg : ∀ a, R.Replays (owes a) (f a) (g a) owes') :
    R.Replays owed (x >>= f) (y >>= g) owes' := by
  intro s b s' hrun
  obtain ⟨a, s₁, hx, hf⟩ := bind_eq_ok.mp hrun
  obtain ⟨told, hpaid, hy⟩ := hxy s a s₁ hx
  obtain ⟨told', hpaid', hg⟩ := hfg a s₁ b s' hf
  refine ⟨told ++ told', ?_, fun rest => ?_⟩
  · rw [← List.append_assoc, hpaid, hpaid']
  · rw [List.append_assoc, bind_of_ok (hy (told' ++ rest)), hg]

/-- A pure part that both have, and what follows it where it returns. -/
theorem lift_bind {z : Except ε α} {f : α → EStateM ε S β} {g : α → EStateM ε T β}
    (h : ∀ a, z = .ok a → R.Replays owed (f a) (g a) owes') :
    R.Replays owed (liftM z >>= f) (liftM z >>= g) owes' := by
  cases z with
  | ok a => exact h a rfl
  | error e => exact throw

/-- Two conditionals on one condition. -/
theorem ite {c : Prop} [Decidable c] {x' : EStateM ε S α} {y' : EStateM ε' T α}
    (ht : c → R.Replays owed x y owes) (he : ¬c → R.Replays owed x' y' owes) :
    R.Replays owed (if c then x else x') (if c then y else y') owes := by
  by_cases h : c
  · rw [if_pos h, if_pos h]
    exact ht h
  · rw [if_neg h, if_neg h]
    exact he h

end Replays

end Recorder

end Machinery
