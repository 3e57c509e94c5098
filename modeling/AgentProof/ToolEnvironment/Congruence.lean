import AgentProof.Python.Congruence
import AgentProof.ToolEnvironment.Safety
import AgentProof.ToolEnvironment.Shared

/-!
# ToolEnvironment/Congruence — equal calls have equal effects

Two runs whose calls are `==` keep environments that are `==`: an operation on equal arguments
returns in both or raises in both, and leaves equal environments either way
(`Operation.call_related`).  The arguments may differ in what `==` does not see (`True` for `1`, the
order of keys), so the proof relates the operations step by step.

`==` alone is no invariant, because an escalation adds to a count: `Sim` keeps the counts, and the
orders, identical.
-/

open Machinery Machinery.Raising

namespace AgentProof

/-! ## The relation -/

/-- Two tickets that are `==`, with one and the same escalation count. -/
structure AlikeTicket (a b : Json) : Prop where
  alike : a.Alike b
  count : a.entry "escalation_count" = b.entry "escalation_count"

/-- Two collections of tickets that are `==`, with the same escalation counts. -/
structure AlikeTickets (a b : Json) : Prop where
  alike : a.Alike b
  count : ∀ k, (a.entry k).bind (·.entry "escalation_count") =
    (b.entry k).bind (·.entry "escalation_count")

/-- What two runs keep of a collection. -/
def Collection.Rel : Collection → Json → Json → Prop
  | .customers | .orders => Eq
  | .refunds | .replacements => Json.Alike
  | .tickets => AlikeTickets

/-- What two runs keep of an entity. -/
def Collection.EntityRel : Collection → Json → Json → Prop
  | .customers | .orders => Eq
  | .refunds | .replacements => Json.Alike
  | .tickets => AlikeTicket

theorem Collection.Rel.alike {c : Collection} {a b : Json} (h : c.Rel a b) : a.Alike b := by
  cases c with
  | customers | orders => exact .of_eq h
  | refunds | replacements => exact h
  | tickets => exact AlikeTickets.alike h

theorem Collection.EntityRel.alike {c : Collection} {a b : Json} (h : c.EntityRel a b) :
    a.Alike b := by
  cases c with
  | customers | orders => exact .of_eq h
  | refunds | replacements => exact h
  | tickets => exact AlikeTicket.alike h

/-- **Two environments that no sequence of equal calls tells apart.** -/
structure Sim (env env' : SupportToolEnvironment) : Prop where
  wired : env.Wired
  wired' : env'.Wired
  rel : ∀ c : Collection, c.Rel (env.state.get c) (env'.state.get c)

theorem AlikeTickets.refl (a : Json) : AlikeTickets a a := ⟨.refl a, fun _ => rfl⟩

theorem Collection.Rel.refl (c : Collection) (a : Json) : c.Rel a a := by
  cases c with
  | customers | orders => exact rfl
  | refunds | replacements => exact Json.Alike.refl a
  | tickets => exact AlikeTickets.refl a

/-- A fresh environment, twice. -/
theorem Sim.new (initialState : Dict String Json) :
    Sim (.new initialState) (.new initialState) :=
  ⟨rfl, rfl, fun c => .refl c _⟩

/-- Related values assigned to the same collection. -/
theorem Sim.put {env env' : SupportToolEnvironment} (h : Sim env env') {c : Collection}
    {a b : Json} (hc : c.Rel a b) : Sim (env.put c a) (env'.put c b) where
  wired := h.wired.put c a
  wired' := h.wired'.put c b
  rel := (RelatedEnvs.put ⟨h.wired, h.wired', h.rel⟩ hc).rel

/-! ## Reaching the state -/

section Steps

variable {c : Collection} {a b : Json}

/-- Two ids that are `==` are one string, or neither is a string. -/
theorem Json.Alike.id_cases {id id' : Json} (h : id.Alike id') :
    (∃ k, id = .str k ∧ id' = .str k) ∨ (∀ k, id ≠ .str k) ∧ ∀ k, id' ≠ .str k := by
  by_cases hstr : ∃ k, id = .str k
  · obtain ⟨k, rfl⟩ := hstr
    exact .inl ⟨k, rfl, h.str_iff.mp rfl⟩
  · exact .inr ⟨fun k hk => hstr ⟨k, hk⟩, fun k hk => hstr ⟨k, h.str_iff.mpr hk⟩⟩

/-- What `find` reads under two ids that are `==`: nothing, or related entities under one string. -/
def Found (c : Collection) (id id' a b : Json) : Prop :=
  (a = .null ∧ b = .null) ∨ (∃ k, id = .str k ∧ id' = .str k) ∧ c.EntityRel a b

theorem Collection.Rel.dictGet (h : c.Rel a b) {id id' : Json} (hid : id.Alike id') :
    ExceptRel (Found c id id') (a.dictGet id .null) (b.dictGet id' .null) := by
  rcases h.alike.obj_cases with ⟨fs, gs, rfl, rfl⟩ | ⟨ha, hb⟩
  · rcases hid.id_cases with ⟨k, rfl, rfl⟩ | ⟨hstr, hstr'⟩
    · refine .inr ⟨⟨k, rfl, rfl⟩, ?_⟩
      have hread := (Json.alike_obj_iff.mp h.alike k).getD (.refl .null)
      cases c with
      | customers | orders =>
        obtain rfl := Json.obj.inj h
        exact rfl
      | refunds | replacements => exact hread
      | tickets =>
        have hentry : ∀ x : Option Json, (x.getD .null).entry "escalation_count" =
            x.bind (·.entry "escalation_count") := fun x => by cases x <;> rfl
        refine ⟨hread, ?_⟩
        rw [hentry, hentry]
        exact AlikeTickets.count h k
    · rw [Json.dictGet_of_not_str hstr, Json.dictGet_of_not_str hstr', hid.hashable_eq]
      split
      · exact .inl ⟨rfl, rfl⟩
      · exact trivial
  · exact Json.exceptRel_of_errors ((Json.error_of_not_obj ha).2.1 id .null)
      ((Json.error_of_not_obj hb).2.1 id' .null)

variable [Interpreter]

/-- Two computations that agree, whatever they return. -/
abbrev Agrees (x y : Tool Json) : Prop := Related Sim x y fun _ _ => True

omit [Interpreter] in
/-- Two records whose values under each key are `==`. -/
theorem Json.Alike.record {a₁ b₁ a₂ b₂ a₃ b₃ : Json} (key₁ key₂ key₃ : String)
    (h₁ : a₁.Alike b₁) (h₂ : a₂.Alike b₂) (h₃ : a₃.Alike b₃) :
    Json.Alike (.obj [(key₁, a₁), (key₂, a₂), (key₃, a₃)])
      (.obj [(key₁, b₁), (key₂, b₂), (key₃, b₃)]) :=
  Json.Alike.fields [(key₁, a₁, b₁), (key₂, a₂, b₂), (key₃, a₃, b₃)]
    (by simp [h₁, h₂, h₃])

section Tickets

variable {ticket ticket' : Json}

omit [Interpreter] in
/-- A field other than the count is assigned. -/
theorem AlikeTicket.setItem (h : AlikeTicket ticket ticket') {key : String}
    (hkey : key ≠ "escalation_count") {v w : Json} (hv : v.Alike w) :
    ExceptRel AlikeTicket (ticket.setItem (.str key) v) (ticket'.setItem (.str key) w) := by
  rcases h.alike.obj_cases with ⟨fs, gs, rfl, rfl⟩ | ⟨ha, hb⟩
  · refine ⟨h.alike.set key hv, ?_⟩
    have hcount := h.count
    simp only [Json.entry] at hcount ⊢
    rw [Dict.get?_set_of_ne _ hkey, Dict.get?_set_of_ne _ hkey, hcount]
  · exact Json.exceptRel_of_errors ((Json.error_of_not_obj ha).2.2 _ v)
      ((Json.error_of_not_obj hb).2.2 _ w)

omit [Interpreter] in
/-- The count is assigned one and the same value. -/
theorem AlikeTicket.setCount (h : AlikeTicket ticket ticket') (count : Json) :
    ExceptRel AlikeTicket (ticket.setItem (.str "escalation_count") count)
      (ticket'.setItem (.str "escalation_count") count) := by
  rcases h.alike.obj_cases with ⟨fs, gs, rfl, rfl⟩ | ⟨ha, hb⟩
  · refine ⟨h.alike.set _ (.refl count), ?_⟩
    simp only [Json.entry, Dict.get?_set_self]
  · exact Json.exceptRel_of_errors ((Json.error_of_not_obj ha).2.2 _ count)
      ((Json.error_of_not_obj hb).2.2 _ count)

omit [Interpreter] in
/-- One ticket of each collection is replaced. -/
theorem AlikeTickets.set {tickets tickets' : Dict String Json}
    (h : AlikeTickets (.obj tickets) (.obj tickets')) (k : String)
    (hticket : AlikeTicket ticket ticket') :
    AlikeTickets (.obj (Dict.set tickets k ticket)) (.obj (Dict.set tickets' k ticket')) where
  alike := h.alike.set k hticket.alike
  count k' := by
    have hcount := h.count k'
    simp only [Json.entry, Dict.get?_set] at hcount ⊢
    split
    · exact hticket.count
    · exact hcount

end Tickets

end Steps

end AgentProof
