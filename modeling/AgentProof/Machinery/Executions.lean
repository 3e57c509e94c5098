import Mathlib.Tactic.Basic

/-!
# Machinery/Executions — labelled executions

A labelled transition system is a relation `step : L → S → S → Prop`; an execution leads from one
state to another and lists the labels of its steps.  Two rules:

* `Execution.invariant` — what holds at the start and is kept by every step holds at the end;
* `Execution.simulate` — a step-by-step simulation carries an execution over, labels and all.

Where the labels determine the states, `Along` says what holds of every step, and `along_iff`
compares two such properties.
-/

namespace Machinery

variable {L S T : Type}

/-- An execution from one state to another, with the labels of its steps in order. -/
inductive Execution (step : L → S → S → Prop) : S → List L → S → Prop where
  | nil (s : S) : Execution step s [] s
  | snoc {s s' s'' : S} {labels : List L} {l : L} (h : Execution step s labels s')
      (hl : step l s' s'') :
      Execution step s (labels ++ [l]) s''

namespace Execution

variable {step : L → S → S → Prop} {step' : L → T → T → Prop} {s s' : S} {labels : List L}

/-- A step before an execution. -/
theorem cons {l : L} {s'' : S} (hl : step l s s') (h : Execution step s' labels s'') :
    Execution step s (l :: labels) s'' := by
  induction h with
  | nil => exact .snoc (.nil s) hl
  | snoc _ hlast ih => exact .snoc ih hlast

/-- One execution after another. -/
theorem append {labels' : List L} {s'' : S} (h : Execution step s labels s')
    (h' : Execution step s' labels' s'') : Execution step s (labels ++ labels') s'' := by
  induction h' with
  | nil => rwa [List.append_nil]
  | snoc _ hlast ih => rw [← List.append_assoc]; exact .snoc ih hlast

/-- **The invariant rule**, over the labels so far and the state. -/
theorem invariant {P : List L → S → Prop} (h : Execution step s labels s') (hinit : P [] s)
    (hstep : ∀ labels l u u', P labels u → step l u u' → P (labels ++ [l]) u') : P labels s' := by
  induction h with
  | nil => exact hinit
  | snoc _ hl ih => exact hstep _ _ _ _ ih hl

/-- **The simulation rule**. -/
theorem simulate {R : S → T → Prop} {t : T} (h : Execution step s labels s') (hinit : R s t)
    (hstep : ∀ l u u' v, R u v → step l u u' → ∃ v', step' l v v' ∧ R u' v') :
    ∃ t', Execution step' t labels t' ∧ R s' t' := by
  induction h with
  | nil => exact ⟨t, .nil t, hinit⟩
  | snoc _ hl ih =>
    obtain ⟨v, hrun, hv⟩ := ih
    obtain ⟨v', hv', hR⟩ := hstep _ _ _ _ hv hl
    exact ⟨v', .snoc hrun hv', hR⟩

end Execution

/-! ## Deterministic runs -/

section Along

variable {C : Type} {next : C → S → S} {F P Q : C → S → Prop}

/-- What holds of every call of a run, and of the state it is made in. -/
def Along (next : C → S → S) (P : C → S → Prop) : List C → S → Prop
  | [], _ => True
  | c :: cs, s => P c s ∧ Along next P cs (next c s)

/-- It can be checked call by call. -/
instance decidableAlong [∀ c s, Decidable (P c s)] : ∀ cs s, Decidable (Along next P cs s)
  | [], _ => inferInstanceAs (Decidable True)
  | c :: cs, s =>
    have := decidableAlong cs (next c s)
    inferInstanceAs (Decidable (_ ∧ _))

/-- **Two properties hold along the same runs** if they agree on the states of an invariant that
either keeps. -/
theorem along_iff {R : S → Prop} (hiff : ∀ c s, R s → F c s → (P c s ↔ Q c s))
    (hkeep : ∀ c s, R s → F c s → Q c s → R (next c s)) :
    ∀ {cs : List C} {s : S}, R s → Along next F cs s → (Along next P cs s ↔ Along next Q cs s)
  | [], _, _, _ => Iff.rfl
  | c :: cs, s, hs, ⟨hF, hrest⟩ => by
    rw [Along, Along, hiff c s hs hF]
    exact and_congr_right fun hQ => along_iff hiff hkeep (hkeep c s hs hF hQ) hrest

end Along

end Machinery
