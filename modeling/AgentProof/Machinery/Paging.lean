import Mathlib.Data.List.Basic
import Mathlib.Order.Lattice

/-!
# Machinery/Paging — reading a list page by page

`page o n l` is the page of `n` items from the offset `o` on.  A list may change while it is read:

* if it only grows at its end, full pages stay as they are, and the pages read one after the other
  are what one reading of the last of the lists would give (`flatMap_growing`);
* if items are filed in between by an increasing key, a page stays as it is exactly when they all
  come after it (`page_eq_page_iff`).
-/

namespace Machinery

variable {α κ : Type}

/-- The page of `n` items from an offset on. -/
def page (o n : ℕ) (l : List α) : List α := (l.drop o).take n

/-- The items before a page, and the page. -/
theorem take_append_page (o n : ℕ) (l : List α) : l.take o ++ page o n l = l.take (o + n) :=
  (List.take_add ..).symm

theorem length_page (o n : ℕ) (l : List α) : (page o n l).length = min n (l.length - o) := by
  rw [page, List.length_take, List.length_drop]

/-! ## Lists that grow at their end -/

/-- **Pages of a growing list**, each read at a time of its own: as long as all but the last are
full, they are the beginning of what is there when the last is read. -/
theorem flatMap_growing {ls : ℕ → List α} (hgrows : ∀ i, ls i <+: ls (i + 1)) {n : ℕ} (k : ℕ)
    (hfull : ∀ i < k, (page (i * n) n (ls i)).length = n) :
    (List.range (k + 1)).flatMap (fun i => page (i * n) n (ls i)) = (ls k).take ((k + 1) * n) := by
  induction k with
  | zero => simp [page]
  | succ k ih =>
    have hlength : (k + 1) * n ≤ (ls k).length ∨ n = 0 := by
      have h := hfull k (Nat.lt_succ_self k)
      rw [length_page] at h
      rw [Nat.succ_mul]
      omega
    have hsame : (ls k).take ((k + 1) * n) = (ls (k + 1)).take ((k + 1) * n) := by
      rcases hlength with hle | rfl
      · obtain ⟨rest, hrest⟩ := hgrows k
        rw [← hrest, List.take_append_of_le_length hle]
      · simp
    rw [List.range_succ, List.flatMap_append, ih fun i hi => hfull i (hi.trans (Nat.lt_succ_self k)),
      hsame, List.flatMap_singleton, take_append_page, Nat.succ_mul (k + 1)]

/-! ## Lists filed by a key -/

/-- Under a key that no two items share, there is one item. -/
theorem filter_key_eq_singleton [DecidableEq κ] {f : α → κ} {l : List α} (h : (l.map f).Nodup)
    {a : α} (ha : a ∈ l) : (l.filter fun b => f b = f a) = [a] := by
  induction l with
  | nil => simp at ha
  | cons b l ih =>
    obtain ⟨hb, hl⟩ := List.nodup_cons.mp h
    have hne : ∀ c ∈ l, f c ≠ f b := fun c hc heq => hb (List.mem_map.mpr ⟨c, hc, heq⟩)
    rcases List.mem_cons.mp ha with rfl | ha
    · rw [List.filter_cons_of_pos (by simp), List.filter_eq_nil_iff.mpr]
      simpa using hne
    · rw [List.filter_cons_of_neg (by simpa using (hne a ha).symm), ih hl ha]

section Filed

variable [LinearOrder κ] {f : α → κ} {l l' : List α}

/-- What comes before an item is what has a smaller key. -/
theorem filter_lt_eq_take (h : l.Pairwise fun a b => f a < f b) {o : ℕ} {a : α}
    (ha : l[o]? = some a) : (l.filter fun b => f b < f a) = l.take o := by
  induction l generalizing o with
  | nil => simp at ha
  | cons b l ih =>
    obtain ⟨hb, hl⟩ := List.pairwise_cons.mp h
    cases o with
    | zero =>
      obtain rfl : b = a := by simpa using ha
      rw [List.take_zero, List.filter_eq_nil_iff]
      intro c hc
      rcases List.mem_cons.mp hc with rfl | hc
      · simp
      · simpa using (hb c hc).le
    | succ o =>
      rw [List.getElem?_cons_succ] at ha
      have hlt : f b < f a := hb a (List.mem_of_getElem? ha)
      rw [List.filter_cons_of_pos (by simpa using hlt), ih hl ha, List.take_succ_cons]

/-- **The first items stay** as long as those that are filed come after them. -/
theorem take_eq_take_iff (hsub : l.Sublist l') (h : l'.Pairwise fun a b => f a < f b) (m : ℕ) :
    l'.take m = l.take m ↔ ∀ a ∈ l', a ∉ l → m ≤ l'.countP fun b => f b < f a := by
  induction hsub generalizing m with
  | slnil => simp
  | @cons l l' a hsub ih =>
    obtain ⟨ha, hl'⟩ := List.pairwise_cons.mp h
    have hnew : a ∉ l := fun hmem => (ha a (hsub.subset hmem)).false
    cases m with
    | zero => simp
    | succ m =>
      have hhead : a ∈ (a :: l').take (m + 1) := by simp
      refine iff_of_false (fun heq => hnew (List.mem_of_mem_take (heq ▸ hhead))) fun hall => ?_
      have hcount := hall a List.mem_cons_self hnew
      have hzero : (a :: l').countP (fun b => f b < f a) = 0 := by
        rw [List.countP_eq_zero]
        intro c hc
        rcases List.mem_cons.mp hc with rfl | hc
        · simp
        · simpa using (ha c hc).le
      omega
  | @cons_cons l l' a hsub ih =>
    obtain ⟨ha, hl'⟩ := List.pairwise_cons.mp h
    cases m with
    | zero => simp
    | succ m =>
      rw [List.take_succ_cons, List.take_succ_cons, List.cons_inj_right, ih hl']
      constructor
      · intro hall b hb hnew
        rcases List.mem_cons.mp hb with rfl | hb
        · exact absurd List.mem_cons_self hnew
        · rw [List.countP_cons_of_pos (by simpa using ha b hb)]
          exact Nat.succ_le_succ (hall b hb fun hmem => hnew (List.mem_cons_of_mem _ hmem))
      · intro hall b hb hnew
        have hne : b ∉ a :: l := by
          rw [List.mem_cons, not_or]
          exact ⟨fun heq => (ha b hb).ne (congrArg f heq.symm), hnew⟩
        have hcount := hall b (List.mem_cons_of_mem _ hb) hne
        rw [List.countP_cons_of_pos (by simpa using ha b hb)] at hcount
        exact Nat.le_of_succ_le_succ hcount

/-- **A page stays as it is** exactly when nothing is filed before its end, or when the list does
not come up to it. -/
theorem page_eq_page_iff (hsub : l.Sublist l') (h : l'.Pairwise fun a b => f a < f b) {n : ℕ}
    (hn : 0 < n) (o : ℕ) :
    page o n l' = page o n l ↔
      l'.length ≤ o ∨ ∀ a ∈ l', a ∉ l → o + n ≤ l'.countP fun b => f b < f a := by
  rw [← take_eq_take_iff hsub h]
  constructor
  · intro heq
    refine (Nat.lt_or_ge o l'.length).symm.imp_right fun hlt => ?_
    obtain ⟨a, ha⟩ : ∃ a, l'[o]? = some a := ⟨l'[o], List.getElem?_eq_getElem hlt⟩
    have hhead : ∀ l : List α, (page o n l)[0]? = l[o]? := fun l => by
      rw [page, List.getElem?_take_of_lt hn, List.getElem?_drop, Nat.add_zero]
    have ha' : l[o]? = some a := by rw [← hhead, ← heq, hhead, ha]
    have hbefore : l'.take o = l.take o := by
      have hfiltered : (l.filter fun b => f b < f a).Sublist (l'.filter fun b => f b < f a) :=
        hsub.filter _
      rw [filter_lt_eq_take h ha, filter_lt_eq_take (h.sublist hsub) ha'] at hfiltered
      have hle := (List.getElem?_eq_some_iff.mp ha').1
      refine (hfiltered.eq_of_length ?_).symm
      rw [List.length_take, List.length_take]
      omega
    rw [← take_append_page, ← take_append_page, hbefore, heq]
  · rintro (hle | heq)
    · have hle' := hsub.length_le
      rw [page, page, List.drop_of_length_le hle, List.drop_of_length_le (hle'.trans hle)]
    · have hdrop : ∀ l : List α, page o n l = (l.take (o + n)).drop o := fun l => by
        rw [List.drop_take, Nat.add_sub_cancel_left, page]
      rw [hdrop, hdrop, heq]

end Filed

end Machinery
