import AgentProof.Machinery.Raising

/-!
# Machinery/Relational — two runs, from one state to the next

`Coupled P x y Q F` is the relational triple with conditions on the states: from states that satisfy
`P` both runs return, and then `Q` holds, or both raise, and then `F` holds.  Where `RelatedBy` keeps
one relation of the states throughout, here each part may establish more than it was given, so
`Coupled.bind` threads what a part has found out to the parts after it.
-/

namespace Machinery

open Raising

variable {ε ε' σ τ α β γ δ : Type}

/-- Two results agree: both returned, or both raised. -/
inductive CoupledResult (Q : α → β → σ → τ → Prop) (F : ε → ε' → σ → τ → Prop) :
    EStateM.Result ε σ α → EStateM.Result ε' τ β → Prop where
  | ok {a : α} {b : β} {s : σ} {t : τ} (h : Q a b s t) : CoupledResult Q F (.ok a s) (.ok b t)
  | error {e : ε} {e' : ε'} {s : σ} {t : τ} (h : F e e' s t) :
      CoupledResult Q F (.error e s) (.error e' t)

/-- Weaker conditions after. -/
theorem CoupledResult.imp {Q Q' : α → β → σ → τ → Prop} {F : ε → ε' → σ → τ → Prop}
    {r : EStateM.Result ε σ α} {r' : EStateM.Result ε' τ β} (h : CoupledResult Q F r r')
    (hQ : ∀ a b s t, Q a b s t → Q' a b s t) : CoupledResult Q' F r r' := by
  cases h with
  | ok h => exact .ok (hQ _ _ _ _ h)
  | error h => exact .error h

/-- **The relational triple** with conditions on the states. -/
def Coupled (P : σ → τ → Prop) (x : EStateM ε σ α) (y : EStateM ε' τ β)
    (Q : α → β → σ → τ → Prop) (F : ε → ε' → σ → τ → Prop) : Prop :=
  ∀ s t, P s t → CoupledResult Q F (x s) (y t)

namespace Coupled

variable {P : σ → τ → Prop} {Q : α → β → σ → τ → Prop} {F : ε → ε' → σ → τ → Prop}
  {x : EStateM ε σ α} {y : EStateM ε' τ β}

theorem pure {a : α} {b : β} (h : ∀ s t, P s t → Q a b s t) :
    Coupled P (Pure.pure a : EStateM ε σ α) (Pure.pure b : EStateM ε' τ β) Q F :=
  fun s t hst => .ok (h s t hst)

theorem throw {e : ε} {e' : ε'} (h : ∀ s t, P s t → F e e' s t) :
    Coupled P (MonadExcept.throw e : EStateM ε σ α) (MonadExcept.throw e' : EStateM ε' τ β) Q F :=
  fun s t hst => .error (h s t hst)

/-- A stronger condition before. -/
theorem weaken {P' : σ → τ → Prop} (h : Coupled P x y Q F) (hP : ∀ s t, P' s t → P s t) :
    Coupled P' x y Q F :=
  fun s t hst => h s t (hP s t hst)

/-- **Coupled parts compose**: what the first establishes is what the second starts from. -/
theorem bind {f : α → EStateM ε σ γ} {g : β → EStateM ε' τ δ} {Q' : γ → δ → σ → τ → Prop}
    (hxy : Coupled P x y Q F) (hfg : ∀ a b, Coupled (Q a b) (f a) (g b) Q' F) :
    Coupled P (x >>= f) (y >>= g) Q' F := by
  intro s t hst
  have h := hxy s t hst
  rw [bind_apply, bind_apply]
  generalize x s = r at h ⊢
  generalize y t = r' at h ⊢
  cases h with
  | ok hab => exact hfg _ _ _ _ hab
  | error hraised => exact .error hraised

/-- One and the same pure part, then what follows. -/
theorem lift_same {F : ε → ε → σ → τ → Prop} (z : Except ε α) {f : α → EStateM ε σ γ}
    {g : α → EStateM ε τ δ} {Q' : γ → δ → σ → τ → Prop} (hraised : ∀ e s t, P s t → F e e s t)
    (hfg : ∀ a, Coupled P (f a) (g a) Q' F) : Coupled P (liftM z >>= f) (liftM z >>= g) Q' F := by
  cases z with
  | ok a => exact hfg a
  | error e => exact throw (hraised e)

/-- Two conditionals on one condition. -/
theorem ite {c : Prop} [Decidable c] {x' : EStateM ε σ α} {y' : EStateM ε' τ β}
    (ht : Coupled P x y Q F) (he : Coupled P x' y' Q F) :
    Coupled P (if c then x else x') (if c then y else y') Q F := by
  by_cases h : c
  · rwa [if_pos h, if_pos h]
  · rwa [if_neg h, if_neg h]

end Coupled

end Machinery
