import AgentProof.Machinery.Backtracking
import Mathlib.Data.List.Forall2

/-!
# Machinery/Matches — the texts that a pattern without anchors matches

`Matches` reads off the pattern which texts it matches; the backtracking matcher finds these and no
others (`matches_of_mem_found`, `exists_mem_found`).  So a search ends at the first place that
begins with one of them (`search_eq_some`, `FirstAt.search`).

`findAll` lists the matches in a text that do not overlap, from left to right.  A letter that no
class of the pattern has keeps what precedes it and what follows apart (`findAll_cut`).
-/

namespace Machinery

namespace Pattern

variable {χ : Type*}

/-- The pattern does not ask where a line begins or ends. -/
def anchorless : Pattern χ → Bool
  | .lineStart | .lineEnd => false
  | .word _ | .many _ => true
  | .seq r s | .alt r s => r.anchorless && s.anchorless
  | .opt r | .group r => r.anchorless

/-- No class of the pattern has the letter. -/
def avoids (c : χ) : Pattern χ → Bool
  | .lineStart | .lineEnd => true
  | .word classes => classes.all fun p => !p c
  | .many p => !p c
  | .seq r s | .alt r s => r.avoids c && s.avoids c
  | .opt r | .group r => r.avoids c

/-- The pattern matches the text; anchors are passed over. -/
def Matches : Pattern χ → List χ → Prop
  | .lineStart, x | .lineEnd, x => x = []
  | .word classes, x => List.Forall₂ (fun p c => p c = true) classes x
  | .many p, x => ∀ c ∈ x, p c = true
  | .seq r s, x => ∃ y z, x = y ++ z ∧ r.Matches y ∧ s.Matches z
  | .alt r s, x => r.Matches x ∨ s.Matches x
  | .opt r, x => r.Matches x ∨ x = []
  | .group r, x => r.Matches x

/-- A word of single letters matches these. -/
theorem matches_letters_iff [DecidableEq χ] {letters x : List χ} :
    (word (letters.map fun c d => decide (d = c))).Matches x ↔ x = letters := by
  change List.Forall₂ (fun p c => p c = true) (letters.map fun c d => decide (d = c)) x ↔
    x = letters
  rw [List.forall₂_map_left_iff]
  simp only [decide_eq_true_eq]
  constructor
  · intro h
    exact List.forall₂_eq_eq_eq ▸ h.flip
  · rintro rfl
    exact List.forall₂_refl x

theorem notMem_of_forall₂ {classes : List (χ → Bool)} {x : List χ}
    (h : List.Forall₂ (fun p c => p c = true) classes x) {c : χ}
    (hc : ∀ p ∈ classes, p c = false) : c ∉ x := by
  induction h with
  | nil => exact List.not_mem_nil
  | @cons p d classes x hd _ ih =>
    rintro (_ | ⟨_, hmem⟩)
    · exact absurd hd (by rw [hc p (.head _)]; exact Bool.false_ne_true)
    · exact ih (fun q hq => hc q (.tail _ hq)) hmem

/-- A match has none of the letters that the pattern avoids. -/
theorem Matches.notMem {r : Pattern χ} {x : List χ} (h : r.Matches x) {c : χ}
    (hc : r.avoids c = true) : c ∉ x := by
  induction r generalizing x with
  | lineStart | lineEnd =>
    obtain rfl : x = [] := h
    exact List.not_mem_nil
  | word classes => exact notMem_of_forall₂ h (by simpa [avoids] using hc)
  | many p =>
    have hc : p c = false := by simpa [avoids] using hc
    intro hmem
    exact absurd (h c hmem) (by rw [hc]; exact Bool.false_ne_true)
  | seq r s ihr ihs =>
    obtain ⟨hr, hs⟩ := Bool.and_eq_true_iff.mp hc
    obtain ⟨y, z, rfl, hy, hz⟩ := h
    exact fun hmem => (List.mem_append.mp hmem).elim (ihr hy hr) (ihs hz hs)
  | alt r s ihr ihs =>
    obtain ⟨hr, hs⟩ := Bool.and_eq_true_iff.mp hc
    exact h.elim (fun h => ihr h hr) fun h => ihs h hs
  | opt r ih =>
    rcases h with h | rfl
    · exact ih h hc
    · exact List.not_mem_nil
  | group r ih => exact ih h hc

/-! ## The matcher finds the matches -/

section Found

variable {newline : χ → Bool}

theorem matches_of_mem_foundWord {classes : List (χ → Bool)} {start : Bool} {rest : List χ}
    {f : Found χ} (hf : f ∈ foundWord newline classes start rest) :
    rest = f.text ++ f.place.rest ∧ List.Forall₂ (fun p c => p c = true) classes f.text := by
  induction classes generalizing start rest f with
  | nil =>
    obtain rfl := List.mem_singleton.mp hf
    exact ⟨rfl, .nil⟩
  | cons p classes ih =>
    cases rest with
    | nil => simp [foundWord] at hf
    | cons c rest =>
      rw [foundWord] at hf
      split_ifs at hf with hc
      · obtain ⟨g, hg, rfl⟩ := List.mem_map.mp hf
        obtain ⟨hrest, hmatch⟩ := ih hg
        exact ⟨congrArg (c :: ·) hrest, .cons hc hmatch⟩
      · simp at hf

theorem matches_of_mem_foundMany {p : χ → Bool} {start : Bool} {rest : List χ} {f : Found χ}
    (hf : f ∈ foundMany newline p start rest) :
    rest = f.text ++ f.place.rest ∧ ∀ c ∈ f.text, p c = true := by
  induction rest generalizing start f with
  | nil =>
    obtain rfl := List.mem_singleton.mp hf
    exact ⟨rfl, by simp [Found.nothing]⟩
  | cons c rest ih =>
    have hnothing : ∀ g ∈ [Found.nothing ⟨start, c :: rest⟩],
        c :: rest = g.text ++ g.place.rest ∧ ∀ d ∈ g.text, p d = true := by
      simp [Found.nothing]
    rw [foundMany] at hf
    split_ifs at hf with hc
    · rcases List.mem_append.mp hf with hmore | hstop
      · obtain ⟨g, hg, rfl⟩ := List.mem_map.mp hmore
        obtain ⟨hrest, hmatch⟩ := ih hg
        exact ⟨congrArg (c :: ·) hrest, List.forall_mem_cons.mpr ⟨hc, hmatch⟩⟩
      · exact hnothing f hstop
    · exact hnothing f hf

/-- **What is found at a place stands there, and the pattern matches it.** -/
theorem matches_of_mem_found {r : Pattern χ} {place : Place χ} {f : Found χ}
    (hf : f ∈ found newline r place) :
    place.rest = f.text ++ f.place.rest ∧ r.Matches f.text := by
  induction r generalizing place f with
  | lineStart | lineEnd =>
    rw [found] at hf
    split_ifs at hf
    · obtain rfl := List.mem_singleton.mp hf
      exact ⟨rfl, rfl⟩
    · simp at hf
  | word classes => exact matches_of_mem_foundWord hf
  | many p => exact matches_of_mem_foundMany hf
  | seq r s ihr ihs =>
    obtain ⟨g, hg, hfollow⟩ := List.mem_flatMap.mp hf
    obtain ⟨h, hh, rfl⟩ := List.mem_map.mp hfollow
    obtain ⟨hrest, hr⟩ := ihr hg
    obtain ⟨hrest', hs⟩ := ihs hh
    refine ⟨?_, g.text, h.text, rfl, hr, hs⟩
    rw [hrest, hrest', ← List.append_assoc]
    rfl
  | alt r s ihr ihs =>
    rcases List.mem_append.mp hf with hf | hf
    · exact (ihr hf).imp_right .inl
    · exact (ihs hf).imp_right .inr
  | opt r ih =>
    rcases List.mem_append.mp hf with hf | hf
    · exact (ih hf).imp_right .inl
    · obtain rfl := List.mem_singleton.mp hf
      exact ⟨rfl, .inr rfl⟩
  | group r ih =>
    obtain ⟨g, hg, rfl⟩ := List.mem_map.mp hf
    exact (ih hg : _)

theorem exists_mem_foundWord {classes : List (χ → Bool)} {x : List χ}
    (hx : List.Forall₂ (fun p c => p c = true) classes x) (start : Bool) (rest : List χ) :
    ∃ f ∈ foundWord newline classes start (x ++ rest), f.split = (x, rest) := by
  induction hx generalizing start with
  | nil => exact ⟨_, .head _, rfl⟩
  | @cons p c classes x hc _ ih =>
    obtain ⟨f, hf, hsplit⟩ := ih (newline c)
    refine ⟨f.cons c, ?_, congrArg (Prod.map (c :: ·) id) hsplit⟩
    rw [List.cons_append, foundWord, if_pos hc]
    exact List.mem_map_of_mem hf

theorem exists_mem_foundMany {p : χ → Bool} {x : List χ} (hx : ∀ c ∈ x, p c = true)
    (start : Bool) (rest : List χ) :
    ∃ f ∈ foundMany newline p start (x ++ rest), f.split = (x, rest) := by
  induction x generalizing start with
  | nil =>
    refine ⟨.nothing ⟨start, rest⟩, ?_, rfl⟩
    cases rest with
    | nil => exact .head _
    | cons c rest =>
      rw [List.nil_append, foundMany]
      split_ifs <;> simp
  | cons c x ih =>
    obtain ⟨hc, hx⟩ := List.forall_mem_cons.mp hx
    obtain ⟨f, hf, hsplit⟩ := ih hx (newline c)
    refine ⟨f.cons c, ?_, congrArg (Prod.map (c :: ·) id) hsplit⟩
    rw [List.cons_append, foundMany, if_pos hc]
    exact List.mem_append_left _ (List.mem_map_of_mem hf)

/-- **What the pattern matches is found** where it stands. -/
theorem exists_mem_found {r : Pattern χ} (hr : r.anchorless = true) {x : List χ}
    (hx : r.Matches x) (start : Bool) (rest : List χ) :
    ∃ f ∈ found newline r ⟨start, x ++ rest⟩, f.split = (x, rest) := by
  induction r generalizing x start rest with
  | lineStart | lineEnd => exact absurd hr Bool.false_ne_true
  | word classes => exact exists_mem_foundWord hx start rest
  | many p => exact exists_mem_foundMany hx start rest
  | seq r s ihr ihs =>
    obtain ⟨hr, hs⟩ := Bool.and_eq_true_iff.mp hr
    obtain ⟨y, z, rfl, hy, hz⟩ := hx
    obtain ⟨f, hf, hfsplit⟩ := ihr hr hy start (z ++ rest)
    obtain ⟨hftext, hfrest⟩ := Prod.mk.inj hfsplit
    obtain ⟨g, hg, hgsplit⟩ := ihs hs hz f.place.lineStart rest
    obtain ⟨hgtext, hgrest⟩ := Prod.mk.inj hgsplit
    refine ⟨f.append g, ?_, ?_⟩
    · rw [found, List.append_assoc]
      refine List.mem_flatMap.mpr ⟨f, hf, List.mem_map_of_mem ?_⟩
      rwa [← hfrest] at hg
    · rw [Found.split, Found.append, hftext, hgtext, hgrest]
  | alt r s ihr ihs =>
    obtain ⟨hr, hs⟩ := Bool.and_eq_true_iff.mp hr
    rcases hx with hx | hx
    · obtain ⟨f, hf, hsplit⟩ := ihr hr hx start rest
      exact ⟨f, List.mem_append_left _ hf, hsplit⟩
    · obtain ⟨f, hf, hsplit⟩ := ihs hs hx start rest
      exact ⟨f, List.mem_append_right _ hf, hsplit⟩
  | opt r ih =>
    rcases hx with hx | rfl
    · obtain ⟨f, hf, hsplit⟩ := ih hr hx start rest
      exact ⟨f, List.mem_append_left _ hf, hsplit⟩
    · exact ⟨_, List.mem_append_right _ (.head _), rfl⟩
  | group r ih =>
    obtain ⟨f, hf, hsplit⟩ := ih hr hx start rest
    exact ⟨_, List.mem_map_of_mem hf, hsplit⟩

/-! ## The first match -/

/-- **The first match in a text**, between what precedes it and what follows: no match begins
before. -/
structure FirstAt (r : Pattern χ) (before text after : List χ) : Prop where
  isMatch : r.Matches text
  first : ∀ before' y z, before ++ (text ++ after) = before' ++ (y ++ z) →
    before'.length < before.length → ¬ r.Matches y

/-- **A search ends at the first match.** -/
theorem search_eq_some {r : Pattern χ} (hr : r.anchorless = true) {start : Bool} {text : List χ}
    {f : Found χ} (h : search newline r start text = some f) :
    ∃ before, text = before ++ (f.text ++ f.place.rest) ∧
      FirstAt r before f.text f.place.rest := by
  induction text generalizing start with
  | nil =>
    obtain ⟨hrest, hmatch⟩ := matches_of_mem_found (List.mem_of_mem_head? h)
    exact ⟨[], hrest, hmatch, fun _ _ _ _ hlt => absurd hlt (Nat.not_lt_zero _)⟩
  | cons c text ih =>
    rw [search, Option.or_eq_some_iff] at h
    rcases h with h | ⟨hnone, h⟩
    · obtain ⟨hrest, hmatch⟩ := matches_of_mem_found (List.mem_of_mem_head? h)
      exact ⟨[], hrest, hmatch, fun _ _ _ _ hlt => absurd hlt (Nat.not_lt_zero _)⟩
    · obtain ⟨before, rfl, hmatch, hfirst⟩ := ih h
      refine ⟨c :: before, rfl, hmatch, fun before' y z heq hlt hy => ?_⟩
      cases before' with
      | nil =>
        obtain ⟨g, hg, -⟩ : ∃ g ∈ found newline r ⟨start, y ++ z⟩, g.split = (y, z) :=
          exists_mem_found hr hy start z
        rw [← List.nil_append (y ++ z), ← heq, List.cons_append,
          List.head?_eq_none_iff.mp hnone] at hg
        exact absurd hg List.not_mem_nil
      | cons c' before' =>
        exact hfirst before' y z (List.cons.inj heq).2 (Nat.lt_of_succ_lt_succ hlt) hy

/-- **The first match is what a search ends at**, when no other begins there. -/
theorem FirstAt.search {r : Pattern χ} (hr : r.anchorless = true) {before text after : List χ}
    (h : FirstAt r before text after)
    (honly : ∀ y z, text ++ after = y ++ z → r.Matches y → y = text) (start : Bool) :
    ∃ f, search newline r start (before ++ (text ++ after)) = some f ∧
      f.split = (text, after) := by
  have hhere : ∀ start, ∃ f, (found newline r ⟨start, text ++ after⟩).head? = some f ∧
      f.split = (text, after) := by
    intro start
    obtain ⟨g, hg, -⟩ : ∃ g ∈ found newline r ⟨start, text ++ after⟩, g.split = (text, after) :=
      exists_mem_found hr h.isMatch start after
    obtain ⟨f, hf⟩ := Option.ne_none_iff_exists'.mp
      (List.head?_eq_none_iff.not.mpr (List.ne_nil_of_mem hg))
    obtain ⟨hrest, hmatch⟩ := matches_of_mem_found (List.mem_of_mem_head? hf)
    have htext := honly _ _ hrest hmatch
    refine ⟨f, hf, ?_⟩
    rw [Found.split, htext, List.append_cancel_left (htext ▸ hrest : text ++ after = text ++ _)]
  induction before generalizing start with
  | nil =>
    obtain ⟨f, hf, hsplit⟩ := hhere start
    refine ⟨f, ?_, hsplit⟩
    rw [List.nil_append]
    cases hwhole : text ++ after with
    | nil =>
      rw [hwhole] at hf
      exact hf
    | cons c rest =>
      rw [hwhole] at hf
      rw [Pattern.search, hf]
      rfl
  | cons c before ih =>
    have hnone : found newline r ⟨start, c :: (before ++ (text ++ after))⟩ = [] := by
      refine List.eq_nil_iff_forall_not_mem.mpr fun f hf => ?_
      obtain ⟨hrest, hmatch⟩ := matches_of_mem_found hf
      exact h.first [] _ _ hrest (Nat.zero_lt_succ _) hmatch
    have hbefore : FirstAt r before text after := by
      refine ⟨h.isMatch, fun before' y z heq hlt => ?_⟩
      refine h.first (c :: before') y z ?_ (Nat.succ_lt_succ hlt)
      rw [List.cons_append, heq]
      rfl
    rw [List.cons_append, Pattern.search, hnone]
    exact ih hbefore (newline c)

/-- **Another match in the place of the first is first too**, whatever follows: the matches begin
with a letter that they have nowhere else. -/
theorem FirstAt.replace {r : Pattern χ} {c : χ}
    (hhead : ∀ y, r.Matches y → ∃ y', y = c :: y' ∧ c ∉ y') {before text after : List χ}
    (h : FirstAt r before text after) {text' : List χ} (htext' : r.Matches text')
    (after' : List χ) : FirstAt r before text' after' := by
  refine ⟨htext', fun before' y z heq hlt hy => ?_⟩
  obtain ⟨middle, rfl⟩ : ∃ middle, before = before' ++ middle := by
    obtain ⟨middle, hmiddle⟩ := List.prefix_of_prefix_length_le (List.prefix_append before' _)
      (heq ▸ List.prefix_append before (text' ++ after')) (Nat.le_of_lt hlt)
    exact ⟨middle, hmiddle.symm⟩
  obtain ⟨m, middle, rfl⟩ := List.exists_cons_of_ne_nil (l := middle) (by
    rintro rfl
    exact absurd hlt (by simp))
  rw [List.append_assoc] at heq
  have heq := List.append_cancel_left heq
  obtain ⟨rest, hrest⟩ : ∃ rest, m :: middle = y ++ rest := by
    -- a match that went on would have the letter that `text'` begins with inside
    rcases List.append_eq_append_iff.mp heq with ⟨inside, rfl, hinside⟩ | ⟨rest, hrest, -⟩
    · obtain ⟨x', rfl, -⟩ := hhead text' htext'
      obtain ⟨y', hy', hc⟩ := hhead _ hy
      obtain ⟨rfl, rfl⟩ := List.cons.inj hy'
      cases inside with
      | nil => exact ⟨[], by simp⟩
      | cons d inside =>
        obtain ⟨rfl, -⟩ := List.cons.inj hinside
        exact absurd (by simp) hc
    · exact ⟨rest, hrest⟩
  refine h.first before' y (rest ++ (text ++ after)) ?_ hlt hy
  rw [hrest]
  simp only [List.append_assoc]

/-! ## Texts put together -/

/-- Matches of one text, in a text that goes on behind it. -/
def GoesOn (tail : List χ) (f g : Found χ) : Prop :=
  f.text = g.text ∧ f.place.rest = g.place.rest ++ tail

theorem foundWord_goesOn {classes : List (χ → Bool)} {tail : List χ}
    (htail : ∀ c ∈ tail.head?, ∀ p ∈ classes, p c = false) (start start' : Bool) (text : List χ) :
    List.Forall₂ (GoesOn tail) (foundWord newline classes start (text ++ tail))
      (foundWord newline classes start' text) := by
  induction classes generalizing start start' text with
  | nil => exact .cons ⟨rfl, rfl⟩ .nil
  | cons p classes ih =>
    cases text with
    | nil =>
      cases tail with
      | nil => exact .nil
      | cons c tail =>
        have hnone : foundWord newline (p :: classes) start (c :: tail) = [] :=
          if_neg (by simp [htail c rfl p (.head _)])
        rw [List.nil_append, hnone]
        exact .nil
    | cons c text =>
      rw [List.cons_append, foundWord, foundWord]
      split_ifs
      · exact List.rel_map (fun _ _ h => ⟨congrArg (c :: ·) h.1, h.2⟩)
          (ih (fun c hc p hp => htail c hc p (.tail _ hp)) _ _ text)
      · exact .nil

theorem foundMany_goesOn {p : χ → Bool} {tail : List χ} (htail : ∀ c ∈ tail.head?, p c = false)
    (start start' : Bool) (text : List χ) :
    List.Forall₂ (GoesOn tail) (foundMany newline p start (text ++ tail))
      (foundMany newline p start' text) := by
  induction text generalizing start start' with
  | nil =>
    cases tail with
    | nil => exact .cons ⟨rfl, rfl⟩ .nil
    | cons c tail =>
      have hstop : foundMany newline p start (c :: tail) = [.nothing ⟨start, c :: tail⟩] :=
        if_neg (by simp [htail c rfl])
      rw [List.nil_append, hstop]
      exact .cons ⟨rfl, rfl⟩ .nil
  | cons c text ih =>
    rw [List.cons_append, foundMany, foundMany]
    split_ifs
    · refine List.rel_append ?_ (.cons ⟨rfl, rfl⟩ .nil)
      exact List.rel_map (fun _ _ h => ⟨congrArg (c :: ·) h.1, h.2⟩) (ih _ _)
    · exact .cons ⟨rfl, rfl⟩ .nil

/-- **What follows a text is not looked at**, when it is nothing or begins with a letter that the
pattern avoids. -/
theorem found_goesOn {r : Pattern χ} (hr : r.anchorless = true) {tail : List χ}
    (htail : ∀ c ∈ tail.head?, r.avoids c = true) (start start' : Bool) (text : List χ) :
    List.Forall₂ (GoesOn tail) (found newline r ⟨start, text ++ tail⟩)
      (found newline r ⟨start', text⟩) := by
  induction r generalizing start start' text with
  | lineStart | lineEnd => exact absurd hr Bool.false_ne_true
  | word classes =>
    refine foundWord_goesOn (fun c hc p hp => ?_) start start' text
    simpa using List.all_eq_true.mp (htail c hc) p hp
  | many p => exact foundMany_goesOn (fun c hc => by simpa [avoids] using htail c hc) _ _ text
  | seq r s ihr ihs =>
    obtain ⟨hr, hs⟩ := Bool.and_eq_true_iff.mp hr
    refine List.rel_flatMap (ihr hr (fun c hc => (Bool.and_eq_true_iff.mp (htail c hc)).1) _ _ text)
      fun f g hfg => ?_
    obtain ⟨ftext, fcaptured, fstart, frest⟩ := f
    obtain ⟨rfl, rfl⟩ := hfg
    exact List.rel_map (fun _ _ h => ⟨congrArg (g.text ++ ·) h.1, h.2⟩)
      (ihs hs (fun c hc => (Bool.and_eq_true_iff.mp (htail c hc)).2) _ _ g.place.rest)
  | alt r s ihr ihs =>
    obtain ⟨hr, hs⟩ := Bool.and_eq_true_iff.mp hr
    exact List.rel_append (ihr hr (fun c hc => (Bool.and_eq_true_iff.mp (htail c hc)).1) _ _ text)
      (ihs hs (fun c hc => (Bool.and_eq_true_iff.mp (htail c hc)).2) _ _ text)
  | opt r ih => exact List.rel_append (ih hr htail _ _ text) (.cons ⟨rfl, rfl⟩ .nil)
  | group r ih =>
    rw [found, found]
    refine List.rel_map ?_ (ih hr htail start start' text)
    exact fun _ _ h => h

/-! ## All the matches -/

variable (newline) in
/-- The matches that do not overlap, behind a number of letters that are matched already. -/
def findFrom (r : Pattern χ) : ℕ → Bool → List χ → List (List χ)
  | _, _, [] => []
  | n + 1, _, c :: rest => findFrom r n (newline c) rest
  | 0, start, c :: rest =>
    match (found newline r ⟨start, c :: rest⟩).head? with
    | some f => f.text :: findFrom r (f.text.length - 1) (newline c) rest
    | none => findFrom r 0 (newline c) rest

variable (newline) in
/-- The matches in a text that do not overlap, from left to right, of a pattern that matches no
empty text. -/
def findAll (r : Pattern χ) (text : List χ) : List (List χ) := findFrom newline r 0 true text

/-- A match that is listed stands in the text. -/
theorem mem_findAll {r : Pattern χ} {text x : List χ} (h : x ∈ findAll newline r text) :
    x <:+: text ∧ r.Matches x := by
  have hfrom : ∀ (text : List χ) (n : ℕ) (start : Bool), x ∈ findFrom newline r n start text →
      x <:+: text ∧ r.Matches x := by
    intro text
    induction text with
    | nil => exact fun n start h => absurd h (by cases n <;> exact List.not_mem_nil)
    | cons c text ih =>
      have hbehind : ∀ n, x ∈ findFrom newline r n (newline c) text →
          x <:+: c :: text ∧ r.Matches x :=
        fun n h => (ih n _ h).imp_left fun hpart => hpart.trans (List.suffix_cons c text).isInfix
      intro n start h
      cases n with
      | succ n => exact hbehind n h
      | zero =>
        rw [findFrom] at h
        split at h
        · rename_i f hf
          rcases List.mem_cons.mp h with rfl | h
          · obtain ⟨hrest, hmatch⟩ := matches_of_mem_found (List.mem_of_mem_head? hf)
            exact ⟨⟨[], f.place.rest, hrest.symm⟩, hmatch⟩
          · exact hbehind _ h
        · exact hbehind 0 h
  exact hfrom text 0 true h

/-- Where the first line begins changes no match. -/
theorem findFrom_start {r : Pattern χ} (hr : r.anchorless = true) (n : ℕ) (start start' : Bool)
    (text : List χ) : findFrom newline r n start text = findFrom newline r n start' text := by
  cases text with
  | nil => cases n <;> rfl
  | cons c text =>
    cases n with
    | succ n => rfl
    | zero =>
      have hfound : List.Forall₂ (GoesOn []) (found newline r ⟨start, c :: text ++ []⟩)
          (found newline r ⟨start', c :: text⟩) :=
        found_goesOn hr (fun _ h => absurd h (Option.not_mem_none _)) start start' (c :: text)
      rw [List.append_nil] at hfound
      rw [findFrom, findFrom]
      generalize found newline r ⟨start, c :: text⟩ = fs at hfound ⊢
      generalize found newline r ⟨start', c :: text⟩ = gs at hfound ⊢
      cases hfound with
      | nil => rfl
      | cons hfg _ => simp only [List.head?_cons, hfg.1]

/-- The matches of texts put together, where nothing reaches from one into the other. -/
theorem findFrom_append {r : Pattern χ} (hr : r.anchorless = true) {tail : List χ}
    (htail : ∀ c ∈ tail.head?, r.avoids c = true) (text : List χ) (n : ℕ) (start : Bool)
    (hn : n ≤ text.length) : findFrom newline r n start (text ++ tail) =
      findFrom newline r n start text ++ findAll newline r tail := by
  induction text generalizing n start with
  | nil =>
    obtain rfl : n = 0 := Nat.le_zero.mp hn
    exact findFrom_start hr 0 start true tail
  | cons c text ih =>
    cases n with
    | succ n => exact ih n _ (Nat.le_of_succ_le_succ hn)
    | zero =>
      have hfound : List.Forall₂ (GoesOn tail) (found newline r ⟨start, c :: text ++ tail⟩)
          (found newline r ⟨start, c :: text⟩) := found_goesOn hr htail start start (c :: text)
      have hinside : ∀ f ∈ found newline r ⟨start, c :: text⟩, f.text.length - 1 ≤ text.length := by
        intro f hf
        have hlength := congrArg List.length (matches_of_mem_found hf).1
        rw [List.length_cons, List.length_append] at hlength
        omega
      rw [List.cons_append] at hfound ⊢
      rw [findFrom, findFrom]
      generalize found newline r ⟨start, c :: (text ++ tail)⟩ = fs at hfound ⊢
      generalize found newline r ⟨start, c :: text⟩ = gs at hfound hinside ⊢
      cases hfound with
      | nil => exact ih 0 _ (Nat.zero_le _)
      | cons hfg _ =>
        simp only [List.head?_cons, hfg.1, ih _ _ (hinside _ (.head _)), List.cons_append]

/-- Behind a letter that the pattern avoids, the matches are those of what follows. -/
theorem findAll_cons_of_avoids {r : Pattern χ} (hr : r.anchorless = true)
    (hempty : ¬ r.Matches []) {c : χ} (hc : r.avoids c = true) (rest : List χ) :
    findAll newline r (c :: rest) = findAll newline r rest := by
  have hnone : found newline r ⟨true, c :: rest⟩ = [] := by
    refine List.eq_nil_iff_forall_not_mem.mpr fun f hf => ?_
    obtain ⟨hrest, hmatch⟩ := matches_of_mem_found hf
    cases htext : f.text with
    | nil => exact hempty (htext ▸ hmatch)
    | cons d text =>
      rw [htext] at hrest
      obtain ⟨rfl, -⟩ := List.cons.inj hrest
      exact hmatch.notMem hc (htext ▸ List.mem_cons_self)
  rw [findAll, findFrom, hnone]
  exact findFrom_start hr 0 _ true rest

/-- **A word of letters that the pattern avoids keeps the matches before it and behind it
apart.** -/
theorem findAll_cut {r : Pattern χ} (hr : r.anchorless = true) (hempty : ¬ r.Matches [])
    {word : List χ} (hne : word ≠ []) (hword : ∀ c ∈ word, r.avoids c = true)
    (before after : List χ) : findAll newline r (before ++ (word ++ after)) =
      findAll newline r before ++ findAll newline r after := by
  have hskip : findAll newline r (word ++ after) = findAll newline r after := by
    clear hne
    induction word with
    | nil => rfl
    | cons c word ih =>
      obtain ⟨hc, hword⟩ := List.forall_mem_cons.mp hword
      exact (findAll_cons_of_avoids hr hempty hc _).trans (ih hword)
  obtain ⟨c, word, rfl⟩ := List.exists_cons_of_ne_nil hne
  rw [← hskip]
  refine findFrom_append hr (fun d hd => ?_) before 0 true (Nat.zero_le _)
  obtain rfl : c = d := Option.some.inj hd
  exact hword c (.head _)

end Found

end Pattern

end Machinery
