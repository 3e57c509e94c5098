import AgentProof.Machinery.Raising
import AgentProof.Python.Errors

/-!
# Python/Congruence — the operations on values see them through `==`

`Alike` is Python's `==` as a relation.  An operation of the source on values that are `==` returns
values that are `==`, or raises on both: which error it raises, and what it prints, may differ.

Addition is no such operation: `2**53 + 1` and `2.0**53 + 1` are not `==`.
-/

open Machinery Machinery.Raising

namespace AgentProof

namespace Json

/-- `a == b` -/
def Alike (a b : Json) : Prop := a.canon = b.canon

theorem Alike.refl (a : Json) : Alike a a := rfl

theorem Alike.of_eq {a b : Json} (h : a = b) : Alike a b := congrArg canon h

theorem Alike.symm {a b : Json} (h : Alike a b) : Alike b a := Eq.symm h

/-! ## What equal values have in common -/

variable {a b : Json} {fs gs : Dict String Json}

theorem Alike.str_iff (h : Alike a b) {s : String} : a = .str s ↔ b = .str s := by
  rw [← canon_eq_str_iff, ← canon_eq_str_iff (j := b), h]

theorem Alike.null_iff (h : Alike a b) : a = .null ↔ b = .null := by
  rw [← canon_eq_null_iff, ← canon_eq_null_iff (j := b), h]

/-- Equal values are both objects, or neither is. -/
theorem Alike.obj_cases (h : Alike a b) :
    (∃ fs gs, a = .obj fs ∧ b = .obj gs) ∨ (∀ fs, a ≠ .obj fs) ∧ ∀ gs, b ≠ .obj gs := by
  by_cases ha : ∃ fs, a = .obj fs
  · obtain ⟨fs, rfl⟩ := ha
    obtain ⟨gs, rfl⟩ := canon_eq_obj (h.symm.trans (by rw [canon]))
    exact .inl ⟨fs, gs, rfl, rfl⟩
  · refine .inr ⟨fun fs hfs => ha ⟨fs, hfs⟩, ?_⟩
    rintro gs rfl
    obtain ⟨fs, rfl⟩ := canon_eq_obj (h.trans (by rw [canon]))
    exact ha ⟨fs, rfl⟩

/-- Equal values are both lists, or neither is. -/
theorem Alike.arr_cases (h : Alike a b) :
    (∃ xs ys, a = .arr xs ∧ b = .arr ys) ∨ (∀ xs, a ≠ .arr xs) ∧ ∀ ys, b ≠ .arr ys := by
  by_cases ha : ∃ xs, a = .arr xs
  · obtain ⟨xs, rfl⟩ := ha
    obtain ⟨ys, rfl⟩ := canon_eq_arr (h.symm.trans (by rw [canon]))
    exact .inl ⟨xs, ys, rfl, rfl⟩
  · refine .inr ⟨fun xs hxs => ha ⟨xs, hxs⟩, ?_⟩
    rintro ys rfl
    obtain ⟨xs, rfl⟩ := canon_eq_arr (h.trans (by rw [canon]))
    exact ha ⟨xs, rfl⟩

/-- Two readings are `==`, or both fail. -/
def AlikeReading : Option Json → Option Json → Prop
  | some a, some b => Alike a b
  | none, none => True
  | _, _ => False

theorem alikeReading_iff {x y : Option Json} : AlikeReading x y ↔ x.map canon = y.map canon := by
  cases x <;> cases y <;> simp [AlikeReading, Alike]

theorem alikeReading_of_rel {x y : Option Json} (h : Option.Rel Alike x y) : AlikeReading x y := by
  cases h with
  | some h => exact h
  | none => exact trivial

/-- **Equal objects read equal values under every key.** -/
theorem alike_obj_iff :
    Alike (.obj fs) (.obj gs) ↔ ∀ k, AlikeReading (Dict.get? fs k) (Dict.get? gs k) := by
  simp only [Alike, canon_obj_eq_iff, alikeReading_iff]

theorem AlikeReading.getD {x y : Option Json} (h : AlikeReading x y) {d d' : Json}
    (hd : Alike d d') : Alike (x.getD d) (y.getD d') := by
  cases x <;> cases y <;> first | exact h.elim | exact hd | exact h

theorem AlikeReading.isSome_eq {x y : Option Json} (h : AlikeReading x y) :
    x.isSome = y.isSome := by
  cases x <;> cases y <;> first | exact h.elim | exact rfl

/-- Equal values assigned to equal objects. -/
theorem Alike.set (h : Alike (.obj fs) (.obj gs)) (k : String) {v w : Json} (hv : Alike v w) :
    Alike (.obj (Dict.set fs k v)) (.obj (Dict.set gs k w)) := by
  rw [alike_obj_iff] at h ⊢
  intro k'
  rw [Dict.get?_set, Dict.get?_set]
  split
  · exact hv
  · exact h k'

/-- An object with equal values under the same keys. -/
theorem Alike.fields (entries : List (String × Json × Json))
    (h : ∀ e ∈ entries, Alike e.2.1 e.2.2) :
    Alike (.obj (entries.map fun e => (e.1, e.2.1))) (.obj (entries.map fun e => (e.1, e.2.2))) := by
  rw [alike_obj_iff]
  intro k
  induction entries with
  | nil => exact trivial
  | cons e entries ih =>
    obtain ⟨he, hrest⟩ := List.forall_mem_cons.mp h
    simp only [List.map_cons, Dict.get?_cons]
    split
    · exact he
    · exact ih hrest

/-! ## The operations -/

theorem hashable_canon (j : Json) : hashable j.canon = hashable j := by
  cases j with
  | float x => rw [canon_float]; split <;> rfl
  | _ => simp [canon, hashable]

theorem Alike.hashable_eq (h : Alike a b) : a.hashable = b.hashable := by
  rw [← hashable_canon, h, hashable_canon]

theorem Alike.pySame_eq (h : Alike a b) {c d : Json} (h' : Alike c d) :
    pySame a c = pySame b d := by
  rw [pySame, pySame, h, h']

theorem Alike.pyEq_eq (h : Alike a b) {c d : Json} (h' : Alike c d) : pyEq a c = pyEq b d := by
  rw [pyEq, pyEq, isNan_eq_false, isNan_eq_false, h.pySame_eq h']

theorem error_of_not_obj {j : Json} (h : ∀ fs, j ≠ .obj fs) :
    (∀ key, ∃ e, j.subscript key = .error e) ∧ (∀ key d, ∃ e, j.dictGet key d = .error e) ∧
      ∀ key v, ∃ e, j.setItem key v = .error e := by
  cases j with
  | obj fs => exact absurd rfl (h fs)
  | _ => exact ⟨fun _ => ⟨_, rfl⟩, fun _ _ => ⟨_, rfl⟩, fun _ _ => ⟨_, rfl⟩⟩

/-- Two computations that both raise agree. -/
theorem exceptRel_of_errors {ε α β : Type} {Q : α → β → Prop} {x : Except ε α} {y : Except ε β}
    (hx : ∃ e, x = .error e) (hy : ∃ e, y = .error e) : ExceptRel Q x y := by
  obtain ⟨e, rfl⟩ := hx
  obtain ⟨e', rfl⟩ := hy
  exact trivial

theorem Alike.subscript (h : Alike a b) (key : String) :
    ExceptRel Alike (a.subscript key) (b.subscript key) := by
  rcases h.obj_cases with ⟨fs, gs, rfl, rfl⟩ | ⟨ha, hb⟩
  · have hread := alike_obj_iff.mp h key
    simp only [Json.subscript]
    cases hf : Dict.get? fs key <;> cases hg : Dict.get? gs key <;> rw [hf, hg] at hread
    · exact trivial
    · exact hread.elim
    · exact hread.elim
    · exact hread
  · exact exceptRel_of_errors ((error_of_not_obj ha).1 key) ((error_of_not_obj hb).1 key)

/-- A key that is no string reads nothing, and is refused if it has no hash. -/
theorem dictGet_of_not_str {key : Json} (h : ∀ s, key ≠ .str s) (fs : Dict String Json)
    (d : Json) : (Json.obj fs).dictGet key d =
      if key.hashable then .ok d else .error (.typeError (.unhashable "dict key" key)) := by
  cases key with
  | str s => exact absurd rfl (h s)
  | _ => rfl

theorem Alike.dictGet (h : Alike a b) {key key' : Json} (hkey : Alike key key') {d d' : Json}
    (hd : Alike d d') : ExceptRel Alike (a.dictGet key d) (b.dictGet key' d') := by
  rcases h.obj_cases with ⟨fs, gs, rfl, rfl⟩ | ⟨ha, hb⟩
  · by_cases hstr : ∃ s, key = .str s
    · obtain ⟨s, rfl⟩ := hstr
      obtain rfl := hkey.str_iff.mp rfl
      exact (alike_obj_iff.mp h s).getD hd
    · have hkey' : ∀ s, key' ≠ .str s := fun s hs => hstr ⟨s, hkey.str_iff.mpr hs⟩
      rw [dictGet_of_not_str fun s hs => hstr ⟨s, hs⟩, dictGet_of_not_str hkey', hkey.hashable_eq]
      split
      · exact hd
      · exact trivial
  · exact exceptRel_of_errors ((error_of_not_obj ha).2.1 key d) ((error_of_not_obj hb).2.1 key' d')

theorem Alike.setItem (h : Alike a b) (key : String) {v w : Json} (hv : Alike v w) :
    ExceptRel Alike (a.setItem (.str key) v) (b.setItem (.str key) w) := by
  rcases h.obj_cases with ⟨fs, gs, rfl, rfl⟩ | ⟨ha, hb⟩
  · exact h.set key hv
  · exact exceptRel_of_errors ((error_of_not_obj ha).2.2 _ v) ((error_of_not_obj hb).2.2 _ w)

theorem Alike.setdefault (h : Alike a b) (key : String) {d d' : Json} (hd : Alike d d') :
    ExceptRel Alike (a.setdefault key d) (b.setdefault key d') := by
  rcases h.obj_cases with ⟨fs, gs, rfl, rfl⟩ | ⟨ha, hb⟩
  · exact (alike_obj_iff.mp h key).getD hd
  · refine exceptRel_of_errors ?_ ?_
    · cases a with
      | obj fs => exact absurd rfl (ha fs)
      | _ => exact ⟨_, rfl⟩
    · cases b with
      | obj gs => exact absurd rfl (hb gs)
      | _ => exact ⟨_, rfl⟩

theorem Alike.append (h : Alike a b) {v w : Json} (hv : Alike v w) :
    ExceptRel Alike (a.append v) (b.append w) := by
  rcases h.arr_cases with ⟨xs, ys, rfl, rfl⟩ | ⟨ha, hb⟩
  · refine canon_arr_eq_iff.mpr ?_
    rw [List.map_append, List.map_append, canon_arr_eq_iff.mp h]
    exact congrArg _ (congrArg (· :: []) hv)
  · refine exceptRel_of_errors ?_ ?_
    · cases a with
      | arr xs => exact absurd rfl (ha xs)
      | _ => exact ⟨_, rfl⟩
    · cases b with
      | arr ys => exact absurd rfl (hb ys)
      | _ => exact ⟨_, rfl⟩

theorem Alike.inSet (h : Alike a b) (members : List String) :
    ExceptRel Eq (a.inSet members) (b.inSet members) := by
  have hany : (members.any fun m => pySame a (.str m)) = members.any fun m => pySame b (.str m) := by
    simp only [h.pySame_eq (.refl _)]
  rw [Json.inSet, Json.inSet, h.hashable_eq, hany]
  split
  · exact rfl
  · exact trivial

theorem Alike.gt (h : Alike a b) {c d : Json} (h' : Alike c d) :
    ExceptRel Eq (a.gt c) (b.gt d) := by
  have hlt : lt? c a = lt? d b := by rw [lt?, lt?, h, h']
  simp only [Json.gt, hlt]
  cases lt? d b with
  | none => exact trivial
  | some r => exact rfl

theorem Alike.has_eq (h : Alike (.obj fs) (.obj gs)) (k : String) :
    Dict.has fs k = Dict.has gs k := (alike_obj_iff.mp h k).isSome_eq

theorem Alike.contains (h : Alike a b) (key : String) :
    ExceptRel Eq (a.contains (.str key)) (b.contains (.str key)) := by
  rcases h.obj_cases with ⟨fs, gs, rfl, rfl⟩ | ⟨hobj, hobj'⟩
  · exact h.has_eq key
  rcases h.arr_cases with ⟨xs, ys, rfl, rfl⟩ | ⟨harr, harr'⟩
  · have hany : ∀ items : List Json, (items.any fun item => pySame item (.str key)) =
        (items.map canon).any fun c => c = .str key := by
      intro items
      rw [List.any_map]
      rfl
    simp only [Json.contains, hany, canon_arr_eq_iff.mp h]
    exact rfl
  by_cases hstr : ∃ s, a = .str s
  · obtain ⟨s, rfl⟩ := hstr
    obtain rfl := h.str_iff.mp rfl
    exact rfl
  · refine exceptRel_of_errors ?_ ?_
    · cases a with
      | str s => exact absurd ⟨s, rfl⟩ hstr
      | arr xs => exact absurd rfl (harr xs)
      | obj fs => exact absurd rfl (hobj fs)
      | _ => exact ⟨_, rfl⟩
    · cases b with
      | str s => exact absurd ⟨s, h.str_iff.mpr rfl⟩ hstr
      | arr xs => exact absurd rfl (harr' xs)
      | obj fs => exact absurd rfl (hobj' fs)
      | _ => exact ⟨_, rfl⟩

end Json

end AgentProof
