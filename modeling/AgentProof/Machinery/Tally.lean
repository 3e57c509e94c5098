import AgentProof.Machinery.Dict
import Mathlib.Algebra.BigOperators.Group.Finset.Basic
import Mathlib.Algebra.Group.Action.Defs
import Mathlib.Algebra.Order.BigOperators.Group.List
import Mathlib.Tactic.Ring

/-!
# Machinery/Tally — how often the items of a list occur, and which pairs of them agree

`tally` counts the items in one pass; as a set of entries it is determined by the counts, whatever
the order of the items (`tally_perm`).  `pairs` lists the pairs of places in order: the number of
those with equal items is a sum of counts (`two_mul_agreeing_add_length`).
-/

namespace Machinery

variable {α β : Type*}

/-! ## Counts -/

section Tally

variable [DecidableEq α]

/-- How often each item occurs, in the order in which they first do. -/
def tally (items : List α) : Dict α ℕ :=
  items.foldl (fun counts a => Dict.set counts a ((Dict.get? counts a).getD 0 + 1)) []

theorem tally_concat (items : List α) (a : α) :
    tally (items ++ [a]) =
      Dict.set (tally items) a ((Dict.get? (tally items) a).getD 0 + 1) := by
  rw [tally, List.foldl_append]
  rfl

/-- **Every item is counted, and nothing else.** -/
theorem get?_tally (items : List α) (a : α) :
    Dict.get? (tally items) a = if a ∈ items then some (items.count a) else none := by
  induction items using List.reverseRecOn with
  | nil => rfl
  | append_singleton items b ih =>
    rw [tally_concat, Dict.get?_set]
    by_cases hab : b = a
    · subst hab
      rw [if_pos rfl, if_pos (by simp), ih, List.count_append, List.count_singleton_self]
      split_ifs with hmem
      · rfl
      · rw [List.count_eq_zero_of_not_mem hmem]
        rfl
    · have hmem : a ∈ items ++ [b] ↔ a ∈ items := by simp [Ne.symm hab]
      rw [if_neg hab, ih, if_congr hmem rfl rfl, List.count_append,
        List.count_eq_zero_of_not_mem (l := [b]) (by simp [Ne.symm hab]), Nat.add_zero]

theorem nodup_tally (items : List α) : ((tally items).map Prod.fst).Nodup := by
  induction items using List.reverseRecOn with
  | nil => exact List.nodup_nil
  | append_singleton items b ih =>
    rw [tally_concat]
    exact Dict.nodup_keys_set ih _ _

/-- **The entries are the items with their counts.** -/
theorem mem_tally_iff {items : List α} {a : α} {n : ℕ} :
    (a, n) ∈ tally items ↔ a ∈ items ∧ items.count a = n := by
  constructor
  · intro h
    have hread := Dict.get?_eq_some_of_mem (nodup_tally items) h
    rw [get?_tally] at hread
    split_ifs at hread with hmem
    exact ⟨hmem, Option.some.inj hread⟩
  · rintro ⟨hmem, rfl⟩
    refine Dict.mem_of_get?_eq_some ?_
    rw [get?_tally, if_pos hmem]

/-- **The order of the items changes the order of the entries only.** -/
theorem tally_perm {items items' : List α} (h : items.Perm items') :
    (tally items).Perm (tally items') := by
  refine (List.perm_ext_iff_of_nodup (nodup_tally items).of_map (nodup_tally items').of_map).mpr ?_
  rintro ⟨a, n⟩
  rw [mem_tally_iff, mem_tally_iff, h.mem_iff, h.count_eq]

end Tally

/-! ## The greatest of some numbers -/

/-- The greatest of some numbers; of none, zero. -/
def greatest (values : List ℕ) : ℕ := values.foldr max 0

theorem le_greatest {values : List ℕ} {n : ℕ} (h : n ∈ values) : n ≤ greatest values := by
  induction values with
  | nil => exact absurd h List.not_mem_nil
  | cons m values ih =>
    rcases List.mem_cons.mp h with rfl | h
    · exact le_max_left _ _
    · exact (ih h).trans (le_max_right _ _)

theorem greatest_mem {values : List ℕ} (h : values ≠ []) : greatest values ∈ values := by
  induction values with
  | nil => exact absurd rfl h
  | cons m values ih =>
    cases values with
    | nil => simp [greatest]
    | cons n values =>
      rcases max_choice m (greatest (n :: values)) with hm | hrest
      · exact List.mem_cons.mpr (.inl hm)
      · have hmem := ih (List.cons_ne_nil n values)
        rw [← hrest] at hmem
        exact List.mem_cons_of_mem _ hmem

theorem greatest_perm {values values' : List ℕ} (h : values.Perm values') :
    greatest values = greatest values' := h.foldr_eq 0

/-! ## The most frequent items -/

/-- The item of a list of one: `items[0] if len(items) == 1 else None`. -/
def sole : List α → Option α
  | [a] => some a
  | _ => none

theorem sole_eq_some_iff {items : List α} {a : α} : sole items = some a ↔ items = [a] := by
  rcases items with _ | ⟨b, _ | ⟨c, items⟩⟩ <;> simp [sole]

theorem sole_perm {items items' : List α} (h : items.Perm items') : sole items = sole items' := by
  refine Option.ext fun a => ?_
  rw [sole_eq_some_iff, sole_eq_some_iff]
  constructor
  · rintro rfl
    exact List.perm_singleton.mp h.symm
  · rintro rfl
    exact List.perm_singleton.mp h

/-- A list without repetition, of one item. -/
theorem eq_singleton_of_nodup {items : List α} (hnodup : items.Nodup) {a : α} (ha : a ∈ items)
    (h : ∀ b ∈ items, b = a) : items = [a] :=
  List.perm_singleton.mp ((List.perm_ext_iff_of_nodup hnodup (List.nodup_singleton a)).mpr fun b =>
    ⟨fun hb => List.mem_singleton.mpr (h b hb), fun hb => List.mem_singleton.mp hb ▸ ha⟩)

section Frequent

variable [DecidableEq α] {items items' : List α}

/-- How often the most frequent items occur. -/
def topCount (items : List α) : ℕ := greatest ((tally items).map Prod.snd)

/-- The most frequent items. -/
def leaders (items : List α) : List α :=
  ((tally items).filter fun entry => entry.2 = topCount items).map Prod.fst

theorem count_le_topCount (items : List α) (a : α) : items.count a ≤ topCount items := by
  by_cases hmem : a ∈ items
  · exact le_greatest (List.mem_map.mpr ⟨(a, items.count a), mem_tally_iff.mpr ⟨hmem, rfl⟩, rfl⟩)
  · rw [List.count_eq_zero_of_not_mem hmem]
    exact Nat.zero_le _

theorem exists_count_eq_topCount (h : items ≠ []) :
    ∃ a ∈ items, items.count a = topCount items := by
  obtain ⟨b, hb⟩ := List.exists_mem_of_ne_nil items h
  have hne : (tally items).map Prod.snd ≠ [] :=
    List.ne_nil_of_mem (List.mem_map_of_mem (mem_tally_iff.mpr ⟨hb, rfl⟩))
  obtain ⟨⟨a, n⟩, hmem, hn⟩ := List.mem_map.mp (greatest_mem hne)
  obtain ⟨ha, hcount⟩ := mem_tally_iff.mp hmem
  exact ⟨a, ha, hcount.trans hn⟩

theorem topCount_le_length (h : items ≠ []) : topCount items ≤ items.length := by
  obtain ⟨a, -, ha⟩ := exists_count_eq_topCount h
  exact ha ▸ List.count_le_length

theorem topCount_perm (h : items.Perm items') : topCount items = topCount items' :=
  greatest_perm ((tally_perm h).map Prod.snd)

theorem mem_leaders_iff {a : α} :
    a ∈ leaders items ↔ a ∈ items ∧ items.count a = topCount items := by
  rw [leaders, List.mem_map]
  constructor
  · rintro ⟨⟨b, n⟩, hentry, rfl⟩
    obtain ⟨hmem, hn⟩ := List.mem_filter.mp hentry
    obtain ⟨hb, rfl⟩ := mem_tally_iff.mp hmem
    exact ⟨hb, of_decide_eq_true hn⟩
  · rintro ⟨ha, hcount⟩
    exact ⟨(a, topCount items),
      List.mem_filter.mpr ⟨mem_tally_iff.mpr ⟨ha, hcount⟩, decide_eq_true rfl⟩, rfl⟩

theorem nodup_leaders (items : List α) : (leaders items).Nodup :=
  (nodup_tally items).sublist (List.filter_sublist.map Prod.fst)

theorem leaders_perm (h : items.Perm items') : (leaders items).Perm (leaders items') := by
  rw [leaders, leaders, topCount_perm h]
  exact ((tally_perm h).filter _).map Prod.fst

/-- **The sole leader occurs more often than every other item.** -/
theorem sole_leaders_eq_some_iff {a : α} : sole (leaders items) = some a ↔
    a ∈ items ∧ ∀ b ∈ items, b ≠ a → items.count b < items.count a := by
  rw [sole_eq_some_iff]
  constructor
  · intro h
    obtain ⟨ha, hcount⟩ := mem_leaders_iff.mp (h ▸ List.mem_singleton_self a)
    refine ⟨ha, fun b hb hne => ?_⟩
    refine lt_of_le_of_ne (hcount ▸ count_le_topCount items b) fun heq => hne ?_
    exact List.mem_singleton.mp (h ▸ mem_leaders_iff.mpr ⟨hb, heq.trans hcount⟩)
  · rintro ⟨ha, hmost⟩
    have hleaders : ∀ b ∈ leaders items, b = a := by
      intro b hb
      obtain ⟨hb, hcount⟩ := mem_leaders_iff.mp hb
      by_contra hne
      exact absurd (count_le_topCount items a) (Nat.not_le.mpr (hcount ▸ hmost b hb hne))
    obtain ⟨b, hb, hcount⟩ := exists_count_eq_topCount (List.ne_nil_of_mem ha)
    have hmem := mem_leaders_iff.mpr ⟨hb, hcount⟩
    obtain rfl := hleaders b hmem
    exact eq_singleton_of_nodup (nodup_leaders items) hmem hleaders

/-- **There is no sole leader exactly if two items share the greatest count.** -/
theorem sole_leaders_eq_none_iff (h : items ≠ []) : sole (leaders items) = none ↔
    ∃ a ∈ items, ∃ b ∈ items, a ≠ b ∧ items.count a = items.count b ∧
      ∀ c, items.count c ≤ items.count a := by
  obtain ⟨a, ha, hcount⟩ := exists_count_eq_topCount h
  constructor
  · intro hnone
    by_contra hno
    have hsome : sole (leaders items) = some a := by
      refine sole_leaders_eq_some_iff.mpr ⟨ha, fun b hb hne => ?_⟩
      refine lt_of_le_of_ne (hcount ▸ count_le_topCount items b) fun heq => hno ?_
      exact ⟨a, ha, b, hb, hne.symm, heq.symm, fun c => hcount ▸ count_le_topCount items c⟩
    rw [hnone] at hsome
    cases hsome
  · rintro ⟨a, ha, b, hb, hne, heq, hmost⟩
    refine Option.eq_none_iff_forall_ne_some.mpr fun c hc => ?_
    obtain ⟨-, hother⟩ := sole_leaders_eq_some_iff.mp hc
    by_cases hac : a = c
    · subst hac
      exact absurd heq (hother b hb hne.symm).ne'
    · exact absurd (hmost c) (Nat.not_le.mpr (hother a ha hac))

/-- **All items are one exactly if the greatest count is that of all.** -/
theorem topCount_eq_length_iff (h : items ≠ []) :
    topCount items = items.length ↔ items.dedup.length = 1 := by
  obtain ⟨a, ha, hcount⟩ := exists_count_eq_topCount h
  rw [← hcount, List.count_eq_length]
  constructor
  · intro hall
    have hone : items.dedup = [a] := eq_singleton_of_nodup (List.nodup_dedup items)
      (List.mem_dedup.mpr ha) fun b hb => (hall b (List.mem_dedup.mp hb)).symm
    rw [hone]
    rfl
  · intro hone b hb
    obtain ⟨c, hc⟩ := List.length_eq_one_iff.mp hone
    have hsame : ∀ d ∈ items, d = c := fun d hd =>
      List.mem_singleton.mp (hc ▸ List.mem_dedup.mpr hd)
    rw [hsame a ha, hsame b hb]

/-- The counts of the items, one for each place, are up to the greatest. -/
theorem sum_count_le (items : List α) :
    (items.map fun a => items.count a).sum ≤ items.length * topCount items := by
  have h := List.sum_le_card_nsmul (items.map fun a => items.count a) (topCount items)
    (List.forall_mem_map.mpr fun a _ => count_le_topCount items a)
  rwa [List.length_map, smul_eq_mul] at h

/-- **The counts add up to the square exactly if all items are one.** -/
theorem sum_count_eq_iff (h : items ≠ []) :
    (items.map fun a => items.count a).sum = items.length * items.length ↔
      topCount items = items.length := by
  have hpos : 0 < items.length := List.length_pos_iff.mpr h
  have htop := topCount_le_length h
  constructor
  · intro hsum
    have hle := hsum ▸ sum_count_le items
    exact le_antisymm htop (Nat.le_of_mul_le_mul_left hle hpos)
  · intro heq
    obtain ⟨a, -, hcount⟩ := exists_count_eq_topCount h
    have hall := List.count_eq_length.mp (hcount.trans heq)
    have hcounts : items.map (fun a => items.count a) = items.map fun _ => items.length :=
      List.map_congr_left fun b hb => by rw [← hall b hb, hcount, heq]
    rw [hcounts, List.map_const', List.sum_replicate, smul_eq_mul]

end Frequent

/-! ## Pairs -/

/-- The pairs of items at two places, the earlier first. -/
def pairs : List α → List (α × α)
  | [] => []
  | a :: items => items.map (a, ·) ++ pairs items

theorem pairs_map (f : α → β) (items : List α) :
    pairs (items.map f) = (pairs items).map (Prod.map f f) := by
  induction items with
  | nil => rfl
  | cons a items ih =>
    rw [List.map_cons, pairs, pairs, ih, List.map_append, List.map_map, List.map_map]
    rfl

/-- How many pairs there are. -/
theorem two_mul_pairs_add_length (items : List α) :
    2 * (pairs items).length + items.length = items.length * items.length := by
  induction items with
  | nil => rfl
  | cons a items ih =>
    have hsquare : (items.length + 1) * (items.length + 1) =
        items.length * items.length + (2 * items.length + 1) := by ring
    rw [pairs, List.length_append, List.length_map, List.length_cons, hsquare, ← ih]
    ring

/-- One more item is counted once for each place where it stands. -/
theorem sum_count_cons [DecidableEq α] (a : α) (items others : List α) :
    (others.map fun b => (a :: items).count b).sum =
      (others.map fun b => items.count b).sum + others.count a := by
  induction others with
  | nil => rfl
  | cons b others ih =>
    rw [List.map_cons, List.sum_cons, ih, List.map_cons, List.sum_cons, List.count_cons,
      List.count_cons]
    by_cases hab : a = b
    · subst hab
      simp only [beq_self_eq_true, if_true]
      ring
    · have hba : b ≠ a := Ne.symm hab
      simp only [beq_eq_false_iff_ne.mpr hab, beq_eq_false_iff_ne.mpr hba, Bool.false_eq_true,
        if_false]
      ring

/-- **How many pairs agree.** -/
theorem two_mul_agreeing_add_length [DecidableEq α] (items : List α) :
    2 * ((pairs items).filter fun p => p.1 = p.2).length + items.length =
      (items.map fun a => items.count a).sum := by
  induction items with
  | nil => rfl
  | cons a items ih =>
    have hhere : ((items.map (a, ·)).filter fun p => p.1 = p.2).length = items.count a := by
      rw [← List.countP_eq_length_filter, List.countP_map, List.count_eq_countP]
      refine List.countP_congr fun b _ => ?_
      change decide (a = b) = true ↔ (b == a) = true
      rw [decide_eq_true_eq, beq_iff_eq, eq_comm]
    have hbehind := sum_count_cons a items items
    rw [pairs, List.filter_append, List.length_append, hhere, List.map_cons, List.sum_cons,
      hbehind, List.count_cons_self, ← ih, List.length_cons]
    ring

end Machinery
