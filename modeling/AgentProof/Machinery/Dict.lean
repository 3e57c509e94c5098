import Mathlib.Data.List.Basic
import Mathlib.Data.List.Forall2
import Mathlib.Order.Defs.LinearOrder
import Mathlib.Order.Lattice

/-!
# Machinery/Dict — insertion-ordered dictionaries

A dictionary is the list of its entries in insertion order; a key that occurs twice is read at its
first occurrence, so every list is a dictionary and no operation asks for distinct keys.

`sorted` is the canonical form: strictly increasing keys, the same readings
(`sorted_eq_sorted_iff`).
-/

namespace Machinery

/-- A dictionary, as its entries in insertion order. -/
abbrev Dict (κ α : Type*) := List (κ × α)

namespace Dict

variable {κ α β : Type*}

section Reading

variable [DecidableEq κ]

/-- The value a key reads. -/
def get? : Dict κ α → κ → Option α
  | [], _ => none
  | (k', v) :: d, k => if k' = k then some v else get? d k

/-- Assignment: in place when the key is there, at the end when it is not. -/
def set : Dict κ α → κ → α → Dict κ α
  | [], k, v => [(k, v)]
  | (k', v') :: d, k, v => if k' = k then (k', v) :: d else (k', v') :: set d k v

/-- Membership of a key. -/
def has (d : Dict κ α) (k : κ) : Bool := (get? d k).isSome

@[simp] theorem get?_nil (k : κ) : get? ([] : Dict κ α) k = none := rfl

theorem get?_cons (k' k : κ) (v : α) (d : Dict κ α) :
    get? ((k', v) :: d) k = if k' = k then some v else get? d k := rfl

@[simp] theorem get?_cons_self (k : κ) (v : α) (d : Dict κ α) :
    get? ((k, v) :: d) k = some v := if_pos rfl

theorem get?_cons_of_ne {k' k : κ} (h : k' ≠ k) (v : α) (d : Dict κ α) :
    get? ((k', v) :: d) k = get? d k := if_neg h

/-- **An assignment is read back, and nothing else changes.** -/
theorem get?_set (d : Dict κ α) (k : κ) (v : α) (k' : κ) :
    get? (set d k v) k' = if k = k' then some v else get? d k' := by
  induction d with
  | nil => rfl
  | cons e d ih =>
    obtain ⟨l, w⟩ := e
    by_cases hl : l = k
    · subst hl
      by_cases hk : l = k' <;> simp [set, get?_cons, hk]
    · by_cases hk : l = k'
      · subst hk
        simp [set, hl, Ne.symm hl]
      · simp [set, get?_cons, hl, hk, ih]

@[simp] theorem get?_set_self (d : Dict κ α) (k : κ) (v : α) : get? (set d k v) k = some v := by
  rw [get?_set, if_pos rfl]

theorem get?_set_of_ne (d : Dict κ α) {k k' : κ} (h : k ≠ k') (v : α) :
    get? (set d k v) k' = get? d k' := by rw [get?_set, if_neg h]

/-- The last assignment to a key counts. -/
@[simp] theorem set_set (d : Dict κ α) (k : κ) (v w : α) : set (set d k v) k w = set d k w := by
  induction d with
  | nil => simp [set]
  | cons e d ih =>
    by_cases hk : e.1 = k
    · simp [set, hk]
    · simp [set, hk, ih]

@[simp] theorem has_iff {d : Dict κ α} {k : κ} : has d k = true ↔ ∃ v, get? d k = some v :=
  Option.isSome_iff_exists

theorem has_eq_false_iff {d : Dict κ α} {k : κ} : has d k = false ↔ get? d k = none := by
  simp [has]

@[simp] theorem has_set_self (d : Dict κ α) (k : κ) (v : α) : has (set d k v) k = true := by
  simp

/-- A key that is there stays. -/
theorem has_set {d : Dict κ α} {k' : κ} (h : has d k' = true) (k : κ) (v : α) :
    has (set d k v) k' = true := by
  rw [has, get?_set]
  split_ifs
  · rfl
  · exact h

/-- Mapping the values maps the readings. -/
theorem get?_map (f : α → β) (d : Dict κ α) (k : κ) :
    get? (d.map fun e => (e.1, f e.2)) k = (get? d k).map f := by
  induction d with
  | nil => rfl
  | cons e d ih =>
    by_cases hk : e.1 = k
    · simp [get?, hk]
    · simpa [get?, hk] using ih

/-- A value that is read stands in the list. -/
theorem mem_of_get?_eq_some {d : Dict κ α} {k : κ} {v : α} (h : get? d k = some v) :
    (k, v) ∈ d := by
  induction d with
  | nil => exact absurd h (by simp)
  | cons e d ih =>
    obtain ⟨l, w⟩ := e
    by_cases hk : l = k
    · subst hk
      obtain rfl : w = v := by simpa using h
      exact List.mem_cons_self
    · rw [get?_cons_of_ne hk] at h
      exact List.mem_cons_of_mem _ (ih h)

/-- A key that stands in the list is read. -/
theorem get?_isSome_of_mem {d : Dict κ α} {e : κ × α} (h : e ∈ d) : (get? d e.1).isSome := by
  induction d with
  | nil => exact absurd h (by simp)
  | cons e' d ih =>
    obtain ⟨l, w⟩ := e'
    by_cases hk : l = e.1
    · simp [get?, hk]
    · have hmem : e ∈ d := by
        rcases List.mem_cons.mp h with rfl | h
        · exact absurd rfl hk
        · exact h
      simpa [get?, hk] using ih hmem

/-- An assignment adds at most its entry. -/
theorem mem_set {d : Dict κ α} {k : κ} {v : α} {e : κ × α} (h : e ∈ set d k v) :
    e = (k, v) ∨ e ∈ d := by
  induction d with
  | nil => exact .inl (List.mem_singleton.mp h)
  | cons e' d ih =>
    obtain ⟨l, w⟩ := e'
    rw [set] at h
    split_ifs at h with hk
    · subst hk
      exact (List.mem_cons.mp h).imp_right (List.mem_cons_of_mem _)
    · rcases List.mem_cons.mp h with rfl | h
      · exact .inr List.mem_cons_self
      · exact (ih h).imp_right (List.mem_cons_of_mem _)

/-- **Assignments to two keys commute** when one of the keys is there: an assignment to it moves
nothing. -/
theorem set_comm {d : Dict κ α} {k k' : κ} (hne : k ≠ k') (hk : has d k = true) (v w : α) :
    set (set d k v) k' w = set (set d k' w) k v := by
  induction d with
  | nil => cases hk
  | cons e d ih =>
    obtain ⟨l, u⟩ := e
    by_cases hl : l = k
    · subst hl
      simp [set, hne]
    · have hd : has d k = true := by
        rw [has, get?_cons_of_ne hl] at hk
        exact hk
      by_cases hl' : l = k'
      · subst hl'
        simp [set, hl]
      · simp [set, hl, hl', ih hd]

/-- The entries of a dictionary but for one key. -/
def without (d : Dict κ α) (k : κ) : Dict κ α := d.filter fun e => e.1 ≠ k

theorem mem_without {d : Dict κ α} {k : κ} {e : κ × α} : e ∈ without d k ↔ e ∈ d ∧ e.1 ≠ k := by
  rw [without, List.mem_filter, decide_eq_true_eq]

theorem get?_without_of_ne (d : Dict κ α) {k k' : κ} (h : k ≠ k') :
    get? (without d k) k' = get? d k' := by
  induction d with
  | nil => rfl
  | cons e d ih =>
    obtain ⟨l, u⟩ := e
    rw [without, List.filter_cons]
    split_ifs with hl
    · rw [get?_cons, get?_cons]
      exact if_congr Iff.rfl rfl ih
    · obtain rfl : l = k := by simpa using hl
      rw [get?_cons_of_ne h]
      exact ih

/-- An assignment to the key that is left out is left out. -/
theorem without_set_self (d : Dict κ α) (k : κ) (v : α) : without (set d k v) k = without d k := by
  induction d with
  | nil => simp [set, without]
  | cons e d ih =>
    obtain ⟨l, u⟩ := e
    rw [set]
    split_ifs with hl
    · simp [without, hl]
    · rw [without, List.filter_cons_of_pos (by simpa using hl), without,
        List.filter_cons_of_pos (by simpa using hl)]
      exact congrArg _ ih

/-- An assignment to another key stays. -/
theorem without_set_of_ne (d : Dict κ α) {k k' : κ} (h : k ≠ k') (v : α) :
    without (set d k' v) k = set (without d k) k' v := by
  induction d with
  | nil => simp [set, without, h.symm]
  | cons e d ih =>
    obtain ⟨l, u⟩ := e
    by_cases hl' : l = k'
    · subst hl'
      simp [set, without, h.symm]
    · by_cases hl : l = k
      · subst hl
        rw [set, if_neg hl', without, List.filter_cons_of_neg (by simp), without,
          List.filter_cons_of_neg (by simp)]
        exact ih
      · rw [set, if_neg hl', without, List.filter_cons_of_pos (by simpa using hl), without,
          List.filter_cons_of_pos (by simpa using hl), set, if_neg hl']
        exact congrArg _ ih

/-- A dictionary without a key is what it is without it. -/
theorem without_of_get?_eq_none {d : Dict κ α} {k : κ} (h : get? d k = none) : without d k = d := by
  refine List.filter_eq_self.mpr fun e he => ?_
  have hkey : e.1 ≠ k := by
    rintro rfl
    simpa [h] using get?_isSome_of_mem he
  simpa using hkey

/-- A dictionary without the key grows at its end. -/
theorem set_of_get?_eq_none {d : Dict κ α} {k : κ} (h : get? d k = none) (v : α) :
    set d k v = d ++ [(k, v)] := by
  induction d with
  | nil => rfl
  | cons e d ih =>
    obtain ⟨l, w⟩ := e
    rw [get?_cons] at h
    split_ifs at h with hk
    rw [set, if_neg hk, ih h, List.cons_append]

/-- A key that does not stand in the list reads nothing. -/
theorem get?_eq_none_iff {d : Dict κ α} {k : κ} : get? d k = none ↔ k ∉ d.map Prod.fst := by
  induction d with
  | nil => simp
  | cons e d ih =>
    obtain ⟨l, w⟩ := e
    by_cases hk : l = k
    · simp [hk]
    · simp [get?_cons_of_ne hk, ih, Ne.symm hk]

/-- `collections.defaultdict`: a key that is read is entered, with the default. -/
def setDefault (d : Dict κ α) (k : κ) (default : α) : Dict κ α :=
  if has d k then d else set d k default

/-- The entries of a dictionary that was read. -/
theorem mem_setDefault {d : Dict κ α} {k : κ} {default : α} {e : κ × α}
    (h : e ∈ setDefault d k default) : e = (k, default) ∨ e ∈ d := by
  rw [setDefault] at h
  split_ifs at h
  · exact .inr h
  · exact mem_set h

/-- The entry reads as the default read before. -/
theorem getD_get?_setDefault (d : Dict κ α) (k : κ) (default : α) (k' : κ) :
    (get? (setDefault d k default) k').getD default = (get? d k').getD default := by
  rw [setDefault]
  split_ifs with h
  · rfl
  · rw [get?_set]
    split_ifs with hk
    · subst hk
      rw [has_eq_false_iff.mp (Bool.not_eq_true _ ▸ h)]
      rfl
    · rfl

/-! ### Dictionaries of lists -/

/-- The items under all keys. -/
def items (d : Dict κ (List α)) : List α := d.flatMap Prod.snd

/-- **One more item under a key is one more item.** -/
theorem perm_items_set {d : Dict κ (List α)} {k : κ} {xs : List α} {x : α}
    (h : xs.Perm ((get? d k).getD [] ++ [x])) : (items (set d k xs)).Perm (items d ++ [x]) := by
  induction d with
  | nil => simpa [items, set] using h
  | cons e d ih =>
    obtain ⟨l, ys⟩ := e
    by_cases hk : l = k
    · subst hk
      rw [get?_cons_self, Option.getD_some] at h
      rw [set, if_pos rfl, items, items, List.flatMap_cons, List.flatMap_cons, List.append_assoc]
      refine (h.append_right _).trans ?_
      rw [List.append_assoc]
      exact List.perm_append_comm.append_left ys
    · rw [get?_cons_of_ne hk] at h
      rw [set, if_neg hk, items, items, List.flatMap_cons, List.flatMap_cons, List.append_assoc]
      exact (ih h).append_left ys

theorem items_setDefault (d : Dict κ (List α)) (k : κ) : items (setDefault d k []) = items d := by
  rw [setDefault]
  split_ifs with h
  · rfl
  · rw [set_of_get?_eq_none (has_eq_false_iff.mp (Bool.not_eq_true _ ▸ h)), items,
      List.flatMap_append]
    simp [items]

/-- An assignment to a key that is there keeps the keys. -/
theorem map_fst_set {d : Dict κ α} {k : κ} (h : has d k = true) (v : α) :
    (set d k v).map Prod.fst = d.map Prod.fst := by
  induction d with
  | nil => simp at h
  | cons e d ih =>
    obtain ⟨l, w⟩ := e
    by_cases hk : l = k
    · simp [set, hk]
    · rw [has, get?_cons_of_ne hk] at h
      simp [set, hk, ih h]

/-- A value that looks like the one it replaces. -/
theorem map_set {f : κ × α → β} {d : Dict κ α} {k : κ} {v w : α} (h : get? d k = some v)
    (hf : f (k, w) = f (k, v)) : (set d k w).map f = d.map f := by
  induction d with
  | nil => cases h
  | cons e d ih =>
    obtain ⟨l, u⟩ := e
    by_cases hk : l = k
    · subst hk
      rw [get?_cons_self, Option.some.injEq] at h
      rw [set, if_pos rfl, List.map_cons, List.map_cons, hf, h]
    · rw [get?_cons_of_ne hk] at h
      rw [set, if_neg hk, List.map_cons, List.map_cons, ih h]

/-! ### Distinct keys -/

/-- **Assignment keeps the keys distinct.** -/
theorem nodup_keys_set {d : Dict κ α} (h : (d.map Prod.fst).Nodup) (k : κ) (v : α) :
    ((set d k v).map Prod.fst).Nodup := by
  induction d with
  | nil => exact List.pairwise_singleton _ _
  | cons e d ih =>
    obtain ⟨l, w⟩ := e
    obtain ⟨hl, hd⟩ := List.nodup_cons.mp h
    rw [set]
    split_ifs with hk
    · exact h
    · refine List.nodup_cons.mpr ⟨fun hmem => ?_, ih hd⟩
      obtain ⟨e, he, hkey⟩ := List.mem_map.mp hmem
      rcases mem_set he with rfl | he
      · exact hk hkey.symm
      · exact hl (List.mem_map.mpr ⟨e, he, hkey⟩)

/-- Where keys are distinct, every entry is read. -/
theorem get?_eq_some_of_mem {d : Dict κ α} (h : (d.map Prod.fst).Nodup) {k : κ} {v : α}
    (hmem : (k, v) ∈ d) : get? d k = some v := by
  induction d with
  | nil => exact absurd hmem (by simp)
  | cons e d ih =>
    obtain ⟨l, w⟩ := e
    obtain ⟨hl, hd⟩ := List.nodup_cons.mp h
    rcases List.mem_cons.mp hmem with heq | hmem
    · rw [← heq, get?_cons_self]
    · have hne : l ≠ k := fun hlk => hl (List.mem_map.mpr ⟨(k, v), hmem, hlk.symm⟩)
      rw [get?_cons_of_ne hne, ih hd hmem]

end Reading

/-! ## Alike dictionaries -/

section Alike

variable {κ' : Type*} {f : κ → κ'} {r : α → β → Prop} {d : Dict κ α} {d' : Dict κ' β}

/-- The entries of one dictionary are those of the other in the same order, the keys renamed and the
values related. -/
def Alike (f : κ → κ') (r : α → β → Prop) : Dict κ α → Dict κ' β → Prop :=
  List.Forall₂ fun e e' => f e.1 = e'.1 ∧ r e.2 e'.2

theorem Alike.nil : Alike f r [] [] := List.Forall₂.nil

theorem Alike.cons {k : κ} {k' : κ'} {v : α} {w : β} (hk : f k = k') (hv : r v w)
    (h : Alike f r d d') : Alike f r ((k, v) :: d) ((k', w) :: d') := List.Forall₂.cons ⟨hk, hv⟩ h

/-- Values that look the same are lists that look the same. -/
theorem Alike.map_values {γ : Type*} {g : α → γ} {g' : β → γ}
    (h : Alike f (fun v w => g v = g' w) d d') :
    (d.map Prod.snd).map g = (d'.map Prod.snd).map g' := by
  induction h with
  | nil => rfl
  | cons hentry _ ih =>
    rw [List.map_cons, List.map_cons, List.map_cons, List.map_cons, hentry.2, ih]

variable [DecidableEq κ] [DecidableEq κ']

/-- **Alike dictionaries read related values.** -/
theorem Alike.get? (hf : Function.Injective f) (h : Alike f r d d') (k : κ) :
    Option.Rel r (get? d k) (get? d' (f k)) := by
  induction h with
  | nil => exact .none
  | @cons e e' d d' he _ ih =>
    obtain ⟨hkey, hvalue⟩ := he
    by_cases hk : e.1 = k
    · subst hk
      rw [Dict.get?, Dict.get?, if_pos rfl, if_pos hkey.symm]
      exact .some hvalue
    · have hk' : e'.1 ≠ f k := fun heq => hk (hf (hkey.trans heq))
      rw [Dict.get?, Dict.get?, if_neg hk, if_neg hk']
      exact ih

/-- Assignments of related values leave alike dictionaries. -/
theorem Alike.set (hf : Function.Injective f) (h : Alike f r d d') (k : κ) {v : α} {w : β}
    (hv : r v w) : Alike f r (set d k v) (set d' (f k) w) := by
  induction h with
  | nil => exact .cons rfl hv .nil
  | @cons e e' d d' he htail ih =>
    obtain ⟨hkey, hvalue⟩ := he
    by_cases hk : e.1 = k
    · have hk' : e'.1 = f k := hk ▸ hkey.symm
      rw [Dict.set, Dict.set, if_pos hk, if_pos hk']
      exact .cons hkey hv htail
    · have hk' : e'.1 ≠ f k := fun heq => hk (hf (hkey.trans heq))
      rw [Dict.set, Dict.set, if_neg hk, if_neg hk']
      exact .cons hkey hvalue ih

/-- A key reads nothing in either, or related values. -/
theorem Alike.get?_cases (hf : Function.Injective f) (h : Alike f r d d') (k : κ) :
    Dict.get? d k = none ∧ Dict.get? d' (f k) = none ∨
      ∃ v w, Dict.get? d k = some v ∧ Dict.get? d' (f k) = some w ∧ r v w := by
  have hrel := h.get? hf k
  generalize Dict.get? d k = v, Dict.get? d' (f k) = w at hrel ⊢
  cases hrel with
  | none => exact .inl ⟨rfl, rfl⟩
  | some hvw => exact .inr ⟨_, _, rfl, rfl, hvw⟩

/-- The same keys are there. -/
theorem Alike.has (hf : Function.Injective f) (h : Alike f r d d') (k : κ) :
    has d k = has d' (f k) := by
  have hrel := h.get? hf k
  rw [Dict.has, Dict.has]
  generalize Dict.get? d k = v, Dict.get? d' (f k) = w at hrel ⊢
  cases hrel <;> rfl

end Alike

/-! ## Rows with an owner -/

section Owned

variable {κ' ι γ : Type*} [DecidableEq κ] [DecidableEq κ']

/-- A table of rows, each owned by a key, holds what a dictionary files in the key's list: the rows
of a key and the items of its list look the same, up to their order. -/
structure Owned (f : κ → κ') (owner : β → κ') (r : α → γ) (s : β → γ) (lists : Dict κ (List α))
    (rows : Dict ι β) : Prop where
  perm : ∀ k, (((get? lists k).getD []).map r).Perm
    (((rows.map Prod.snd).filter fun row => owner row = f k).map s)
  owned : ∀ entry ∈ rows, ∃ k, owner entry.2 = f k

variable {f : κ → κ'} {owner : β → κ'} {r : α → γ} {s : β → γ} {lists : Dict κ (List α)}
  {rows : Dict ι β}

theorem Owned.nil : Owned f owner r s [] ([] : Dict ι β) := ⟨fun _ => .nil, by simp⟩

/-- A list that is entered with nothing in it changes nothing. -/
theorem Owned.setDefault (h : Owned f owner r s lists rows) (k : κ) :
    Owned f owner r s (setDefault lists k []) rows where
  perm k' := by
    rw [getD_get?_setDefault]
    exact h.perm k'
  owned := h.owned

/-- **One more item and one more row.** -/
theorem Owned.insert [DecidableEq ι] (h : Owned f owner r s lists rows)
    (hf : Function.Injective f) {k : κ}
    {items : List α} {item : α} (hitems : items.Perm ((get? lists k).getD [] ++ [item])) {i : ι}
    (hfree : get? rows i = none) {row : β} (howner : owner row = f k) (hrow : r item = s row) :
    Owned f owner r s (set lists k items) (set rows i row) where
  perm k' := by
    rw [set_of_get?_eq_none hfree, List.map_append, List.filter_append, List.map_append, get?_set]
    split_ifs with hk
    · subst hk
      have hlast : (([(i, row)].map Prod.snd).filter fun row => owner row = f k).map s =
          [item].map r := by simp [howner, hrow]
      rw [hlast, Option.getD_some]
      refine (hitems.map r).trans ?_
      rw [List.map_append]
      exact (h.perm k).append_right _
    · have hlast : ([(i, row)].map Prod.snd).filter (fun row => owner row = f k') = [] := by
        simp [howner, hf.eq_iff, hk]
      rw [hlast, List.map_nil, List.append_nil]
      exact h.perm k'
  owned entry hmem := by
    rcases mem_set hmem with rfl | hmem
    · exact ⟨k, howner⟩
    · exact h.owned entry hmem

/-- An item has a row. -/
theorem Owned.exists_row (h : Owned f owner r s lists rows) {k : κ} {item : α}
    (hmem : item ∈ (get? lists k).getD []) :
    ∃ entry ∈ rows, owner entry.2 = f k ∧ r item = s entry.2 := by
  obtain ⟨row, hrow, heq⟩ := List.mem_map.mp ((h.perm k).subset (List.mem_map_of_mem hmem))
  obtain ⟨hrow, howner⟩ := List.mem_filter.mp hrow
  obtain ⟨entry, hentry, rfl⟩ := List.mem_map.mp hrow
  exact ⟨entry, hentry, of_decide_eq_true howner, heq.symm⟩

/-- A row has an item. -/
theorem Owned.exists_item (h : Owned f owner r s lists rows) {entry : ι × β} (hmem : entry ∈ rows) :
    ∃ k, owner entry.2 = f k ∧ ∃ item ∈ (get? lists k).getD [], r item = s entry.2 := by
  obtain ⟨k, howner⟩ := h.owned entry hmem
  have hrow : entry.2 ∈ (rows.map Prod.snd).filter fun row => owner row = f k :=
    List.mem_filter.mpr ⟨List.mem_map_of_mem hmem, decide_eq_true howner⟩
  obtain ⟨item, hitem, heq⟩ := List.mem_map.mp ((h.perm k).symm.subset (List.mem_map_of_mem hrow))
  exact ⟨k, howner, item, hitem, heq⟩

end Owned

/-! ## The sorted form -/

section Sorted

variable [LinearOrder κ]

/-- Insertion into a sorted dictionary; an equal key is overwritten. -/
def insertSorted (k : κ) (v : α) : Dict κ α → Dict κ α
  | [] => [(k, v)]
  | (k', v') :: d =>
    if k < k' then (k, v) :: (k', v') :: d
    else if k = k' then (k, v) :: d
    else (k', v') :: insertSorted k v d

/-- The dictionary with its keys in increasing order, each at its first reading. -/
def sorted : Dict κ α → Dict κ α
  | [] => []
  | (k, v) :: d => insertSorted k v (sorted d)

theorem get?_insertSorted (k : κ) (v : α) (d : Dict κ α) (k' : κ) :
    get? (insertSorted k v d) k' = if k = k' then some v else get? d k' := by
  induction d with
  | nil => rfl
  | cons e d ih =>
    obtain ⟨l, w⟩ := e
    by_cases hlt : k < l
    · rw [insertSorted, if_pos hlt, get?_cons]
    by_cases heq : k = l
    · subst heq
      by_cases hk : k = k' <;> simp [insertSorted, get?_cons, hk]
    · rw [insertSorted, if_neg hlt, if_neg heq, get?_cons, get?_cons, ih]
      by_cases hk : k = k'
      · subst hk
        simp [Ne.symm heq]
      · simp [hk]

/-- **Sorting changes no reading.** -/
theorem get?_sorted (d : Dict κ α) (k : κ) : get? (sorted d) k = get? d k := by
  induction d with
  | nil => rfl
  | cons e d ih => rw [sorted, get?_insertSorted, ih]; rfl

theorem mem_insertSorted {k : κ} {v : α} {d : Dict κ α} {e : κ × α}
    (h : e ∈ insertSorted k v d) : e = (k, v) ∨ e ∈ d := by
  induction d with
  | nil => exact .inl (by simpa [insertSorted] using h)
  | cons e' d ih =>
    obtain ⟨l, w⟩ := e'
    rw [insertSorted] at h
    split_ifs at h with hlt heq
    · exact (List.mem_cons.mp h).imp_right id
    · exact (List.mem_cons.mp h).imp_right (List.mem_cons_of_mem _)
    · rcases List.mem_cons.mp h with rfl | h
      · exact .inr (by simp)
      · exact (ih h).imp_right (List.mem_cons_of_mem _)

/-- Sorting adds no entry. -/
theorem mem_sorted {d : Dict κ α} {e : κ × α} (h : e ∈ sorted d) : e ∈ d := by
  induction d with
  | nil => exact h
  | cons e' d ih =>
    rcases mem_insertSorted h with rfl | h
    · exact List.mem_cons_self
    · exact List.mem_cons_of_mem _ (ih h)

/-- Strictly increasing keys. -/
def StrictlySorted (d : Dict κ α) : Prop := d.Pairwise fun e e' => e.1 < e'.1

theorem strictlySorted_insertSorted {k : κ} {v : α} {d : Dict κ α} (h : StrictlySorted d) :
    StrictlySorted (insertSorted k v d) := by
  induction d with
  | nil => exact List.pairwise_singleton _ _
  | cons e d ih =>
    obtain ⟨l, w⟩ := e
    obtain ⟨hl, hd⟩ := List.pairwise_cons.mp h
    rw [insertSorted]
    split_ifs with hlt heq
    · refine List.pairwise_cons.mpr ⟨fun e he => ?_, h⟩
      rcases List.mem_cons.mp he with rfl | he
      · exact hlt
      · exact hlt.trans (hl e he)
    · subst heq
      exact List.pairwise_cons.mpr ⟨hl, hd⟩
    · refine List.pairwise_cons.mpr ⟨fun e he => ?_, ih hd⟩
      rcases mem_insertSorted he with rfl | he
      · exact lt_of_le_of_ne (not_lt.mp hlt) (Ne.symm heq)
      · exact hl e he

theorem strictlySorted_sorted : ∀ d : Dict κ α, StrictlySorted (sorted d)
  | [] => List.Pairwise.nil
  | (_, _) :: d => strictlySorted_insertSorted (strictlySorted_sorted d)

/-- A key below every key of a sorted dictionary is not read there. -/
theorem get?_eq_none_of_lt {d : Dict κ α} {k : κ} (h : ∀ e ∈ d, k < e.1) : get? d k = none := by
  induction d with
  | nil => rfl
  | cons e d ih =>
    rw [get?_cons_of_ne (ne_of_gt (h e (by simp)))]
    exact ih fun e' he' => h e' (List.mem_cons_of_mem _ he')

/-- **A strictly sorted dictionary is determined by its readings.** -/
theorem eq_of_get?_eq : ∀ {d d' : Dict κ α}, StrictlySorted d → StrictlySorted d' →
    (∀ k, get? d k = get? d' k) → d = d'
  | [], [], _, _, _ => rfl
  | [], (k, v) :: d', _, _, h => by simpa using h k
  | (k, v) :: d, [], _, _, h => by simpa using h k
  | (k, v) :: d, (k', v') :: d', hd, hd', h => by
    obtain ⟨hk, hd₁⟩ := List.pairwise_cons.mp hd
    obtain ⟨hk', hd₁'⟩ := List.pairwise_cons.mp hd'
    have hkk : k = k' := by
      rcases lt_trichotomy k k' with hlt | heq | hlt
      · have h1 := h k
        rw [get?_cons_self, get?_cons_of_ne (ne_of_gt hlt),
          get?_eq_none_of_lt fun e he => hlt.trans (hk' e he)] at h1
        exact absurd h1 (by simp)
      · exact heq
      · have h1 := h k'
        rw [get?_cons_self, get?_cons_of_ne (ne_of_gt hlt),
          get?_eq_none_of_lt fun e he => hlt.trans (hk e he)] at h1
        exact absurd h1.symm (by simp)
    subst hkk
    have hv : v = v' := by simpa using h k
    subst hv
    refine congrArg _ (eq_of_get?_eq hd₁ hd₁' fun l => ?_)
    by_cases hl : k = l
    · subst hl
      rw [get?_eq_none_of_lt hk, get?_eq_none_of_lt hk']
    · simpa [get?_cons, hl] using h l

/-- **Two dictionaries have the same sorted form exactly when every key reads the same.** -/
theorem sorted_eq_sorted_iff {d d' : Dict κ α} :
    sorted d = sorted d' ↔ ∀ k, get? d k = get? d' k := by
  refine ⟨fun h k => ?_, fun h => ?_⟩
  · rw [← get?_sorted d, h, get?_sorted]
  · refine eq_of_get?_eq (strictlySorted_sorted d) (strictlySorted_sorted d') fun k => ?_
    rw [get?_sorted, get?_sorted, h k]

end Sorted

end Dict

end Machinery
