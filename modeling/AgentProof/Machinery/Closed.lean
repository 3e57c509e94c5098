import Mathlib.Data.List.Basic

/-!
# Machinery/Closed — lists that end at their first closing element

A list `ClosedBy P` has exactly one element with `P`, its last.  Two of them that are walked in step
end together as soon as no pair tells a closing element from another (`ClosedBy.length_eq`): neither
is a proper prefix of the other.
-/

namespace Machinery

variable {α β : Type}

/-- The last element closes the list, and no earlier one does. -/
inductive ClosedBy (P : α → Prop) : List α → Prop where
  | last {a : α} (h : P a) : ClosedBy P [a]
  | cons {a : α} {as : List α} (h : ¬ P a) (rest : ClosedBy P as) : ClosedBy P (a :: as)

namespace ClosedBy

variable {P : α → Prop} {Q : β → Prop}

theorem append {as bs : List α} (has : ∀ a ∈ as, ¬ P a) (hbs : ClosedBy P bs) :
    ClosedBy P (as ++ bs) := by
  induction as with
  | nil => exact hbs
  | cons a as ih =>
    obtain ⟨ha, has⟩ := List.forall_mem_cons.mp has
    exact .cons ha (ih has)

/-- A closed list is transported along a relation that respects what closes. -/
theorem of_forall₂ {R : α → β → Prop} (hR : ∀ a b, R a b → (P a ↔ Q b)) {as : List α} {bs : List β}
    (h : ClosedBy P as) (hrel : List.Forall₂ R as bs) : ClosedBy Q bs := by
  induction h generalizing bs with
  | last ha =>
    obtain _ | ⟨hab, hrest⟩ := hrel
    cases hrest
    exact .last ((hR _ _ hab).mp ha)
  | cons ha _ ih =>
    obtain _ | ⟨hab, hrest⟩ := hrel
    exact .cons (fun hb => ha ((hR _ _ hab).mpr hb)) (ih hrest)

/-- **Closed lists that agree on what closes end together.** -/
theorem length_eq {as : List α} {bs : List β} (has : ClosedBy P as) (hbs : ClosedBy Q bs)
    (hagree : ∀ pair ∈ as.zip bs, (P pair.1 ↔ Q pair.2)) : as.length = bs.length := by
  induction has generalizing bs with
  | @last a ha =>
    cases hbs with
    | last => rfl
    | @cons b _ hb _ => exact absurd ((hagree (a, b) List.mem_cons_self).mp ha) hb
  | @cons a as ha _ ih =>
    cases hbs with
    | @last b hb => exact absurd ((hagree (a, b) List.mem_cons_self).mpr hb) ha
    | @cons b bs hb hrest =>
      have hlength := ih hrest fun pair hmem => hagree pair (List.mem_cons_of_mem _ hmem)
      rw [List.length_cons, List.length_cons, hlength]

end ClosedBy

end Machinery
