import Mathlib.Data.List.Basic
import Mathlib.Tactic.Basic

/-!
# Machinery/Backtracking — patterns matched by greedy backtracking

A pattern is matched at a place by trying its alternatives in order; `found` lists all its matches
there, the preferred one first, so a backtracking matcher returns the head of the list.  `search`
tries the places from left to right.

Repetition is of one letter (`many`).  `Splits` and `Reads` say what a pattern does by a function of
the text alone; their laws follow the pattern:

* `capture_lineStart` — a pattern anchored to the beginning of a line is looked for line by line;
* `Reads.many` — a repetition gives letters back, one at a time, until what follows fits;
* `Reads.group` — what a group captures, before a pattern that captures nothing.
-/

namespace Machinery

variable {χ : Type*}

/-- A pattern over the letters `χ`. -/
inductive Pattern (χ : Type*) where
  | lineStart
  | lineEnd
  /-- one letter of each class, in a row -/
  | word (classes : List (χ → Bool))
  /-- letters of a class, as many as possible -/
  | many (p : χ → Bool)
  | seq (r s : Pattern χ)
  /-- the first alternative is preferred -/
  | alt (r s : Pattern χ)
  /-- the pattern is preferred to nothing -/
  | opt (r : Pattern χ)
  /-- what the pattern matches is captured -/
  | group (r : Pattern χ)

/-- A place in a text: whether a line begins there, and what follows. -/
structure Place (χ : Type*) where
  lineStart : Bool
  rest : List χ

/-- A match: its text, what was captured, and the place behind it. -/
structure Found (χ : Type*) where
  text : List χ
  captured : Option (List χ)
  place : Place χ

/-- The match of nothing. -/
def Found.nothing (place : Place χ) : Found χ := ⟨[], none, place⟩

/-- What a match takes and leaves. -/
def Found.split (f : Found χ) : List χ × List χ := (f.text, f.place.rest)

/-- A match with a letter before it. -/
def Found.cons (c : χ) (f : Found χ) : Found χ := { f with text := c :: f.text }

/-- A match after another. -/
def Found.append (f g : Found χ) : Found χ := ⟨f.text ++ g.text, g.captured <|> f.captured, g.place⟩

@[simp] theorem Found.nothing_append (place : Place χ) (f : Found χ) :
    (Found.nothing place).append f = f := by
  cases f with
  | mk text captured place => cases captured <;> rfl

@[simp] theorem Found.cons_append (c : χ) (f g : Found χ) :
    (f.cons c).append g = (f.append g).cons c := rfl

namespace Pattern

variable (newline : χ → Bool)

/-! ## Matching at a place -/

/-- The matches of a word: one, or none. -/
def foundWord : List (χ → Bool) → Bool → List χ → List (Found χ)
  | [], start, rest => [.nothing ⟨start, rest⟩]
  | _ :: _, _, [] => []
  | p :: classes, _, c :: rest =>
    if p c then (foundWord classes (newline c) rest).map (.cons c) else []

/-- The matches of a repetition: the longest first. -/
def foundMany (p : χ → Bool) : Bool → List χ → List (Found χ)
  | start, [] => [.nothing ⟨start, []⟩]
  | start, c :: rest =>
    if p c then (foundMany p (newline c) rest).map (.cons c) ++ [.nothing ⟨start, c :: rest⟩]
    else [.nothing ⟨start, c :: rest⟩]

/-- The matches of a pattern at a place, the preferred one first. -/
def found : Pattern χ → Place χ → List (Found χ)
  | .lineStart, place => if place.lineStart then [.nothing place] else []
  | .lineEnd, place => if place.rest.head?.all newline then [.nothing place] else []
  | .word classes, place => foundWord newline classes place.lineStart place.rest
  | .many p, place => foundMany newline p place.lineStart place.rest
  | .seq r s, place => (found r place).flatMap fun f => (found s f.place).map f.append
  | .alt r s, place => found r place ++ found s place
  | .opt r, place => found r place ++ [.nothing place]
  | .group r, place => (found r place).map fun f => { f with captured := some f.text }

/-- The first place where the pattern matches, and the preferred match there. -/
def search (r : Pattern χ) : Bool → List χ → Option (Found χ)
  | start, [] => (found newline r ⟨start, []⟩).head?
  | start, c :: rest => (found newline r ⟨start, c :: rest⟩).head?.or (search r (newline c) rest)

/-- What the group captures of the first match in a text. -/
def capture (r : Pattern χ) (text : List χ) : Option (List χ) :=
  (search newline r true text).bind (·.captured)

/-! ## Line by line -/

/-- The texts that follow the line ends. -/
def linesAfter : List χ → List (List χ)
  | [] => []
  | c :: rest => if newline c then rest :: linesAfter rest else linesAfter rest

/-- The rest of the text from the beginning of each line. -/
def linesOf (text : List χ) : List (List χ) := text :: linesAfter newline text

/-- The first line of a text, up to its end, and the lines that follow. -/
theorem linesOf_append {newline : χ → Bool} {line : List χ} (hline : ∀ c ∈ line, newline c = false)
    {c : χ} (hc : newline c = true) (rest : List χ) :
    linesOf newline (line ++ c :: rest) = (line ++ c :: rest) :: linesOf newline rest := by
  refine congrArg ((line ++ c :: rest) :: ·) ?_
  induction line with
  | nil => rw [List.nil_append, linesAfter, if_pos hc, linesOf]
  | cons d line ih =>
    obtain ⟨hd, hline⟩ := List.forall_mem_cons.mp hline
    rw [List.cons_append, linesAfter, if_neg (by rw [hd]; exact Bool.false_ne_true), ih hline]

theorem found_lineStart_seq (r : Pattern χ) (start : Bool) (rest : List χ) :
    found newline (.seq .lineStart r) ⟨start, rest⟩ =
      if start then found newline r ⟨start, rest⟩ else [] := by
  cases start with
  | false => rfl
  | true =>
    have hid : (Found.nothing (⟨true, rest⟩ : Place χ)).append = id :=
      funext (Found.nothing_append _)
    simp only [found, ↓reduceIte, List.flatMap_cons, List.flatMap_nil, List.append_nil, hid,
      List.map_id]
    rfl

/-- **A pattern anchored to the beginning of a line is looked for line by line.** -/
theorem search_lineStart (r : Pattern χ) (text : List χ) :
    search newline (.seq .lineStart r) true text =
      (linesOf newline text).findSome? fun line => (found newline r ⟨true, line⟩).head? := by
  have hboth : ∀ (text : List χ) (start : Bool), search newline (.seq .lineStart r) start text =
      (if start then linesOf newline text else linesAfter newline text).findSome?
        fun line => (found newline r ⟨true, line⟩).head? := by
    intro text
    induction text with
    | nil =>
      intro start
      cases start with
      | false => rfl
      | true => simp [search, found_lineStart_seq, linesOf, linesAfter]
    | cons c rest ih =>
      intro start
      have hrest : (if newline c then linesOf newline rest else linesAfter newline rest) =
          linesAfter newline (c :: rest) := rfl
      rw [search, found_lineStart_seq, ih, hrest]
      cases start with
      | false => rfl
      | true =>
        simp only [↓reduceIte, linesOf, List.findSome?_cons]
        cases (found newline r ⟨true, c :: rest⟩).head? <;> rfl
  exact hboth text true

/-! ## What a pattern takes -/

/-- The letters a word takes, and what it leaves. -/
def splitWord : List (χ → Bool) → List χ → Option (List χ × List χ)
  | [], rest => some ([], rest)
  | _ :: _, [] => none
  | p :: classes, c :: rest =>
    if p c then (splitWord classes rest).map (Prod.map (.cons c) id) else none

/-- The letters a repetition takes, and what it leaves: the most first. -/
def splitMany (p : χ → Bool) : List χ → List (List χ × List χ)
  | [] => [([], [])]
  | c :: rest =>
    if p c then (splitMany p rest).map (Prod.map (.cons c) id) ++ [([], c :: rest)]
    else [([], c :: rest)]

/-- `t` lists what the pattern takes and leaves of a text, wherever a line begins. -/
def Splits (r : Pattern χ) (t : List χ → List (List χ × List χ)) : Prop :=
  ∀ start rest, (found newline r ⟨start, rest⟩).map Found.split = t rest

variable {newline}

/-- A word takes one letter of each class. -/
theorem splitWord_eq_some {classes : List (χ → Bool)} {rest : List χ} {x : List χ × List χ}
    (h : splitWord classes rest = some x) :
    List.Forall₂ (fun p c => p c = true) classes x.1 := by
  induction classes generalizing rest x with
  | nil =>
    cases h
    exact .nil
  | cons p classes ih =>
    cases rest with
    | nil => cases h
    | cons c rest =>
      rw [splitWord] at h
      split_ifs at h with hc
      obtain ⟨y, hy, rfl⟩ := Option.map_eq_some_iff.mp h
      exact .cons hc (ih hy)

/-- Letters of the classes are taken. -/
theorem splitWord_append {classes : List (χ → Bool)} {x : List χ}
    (hx : List.Forall₂ (fun p c => p c = true) classes x) (rest : List χ) :
    splitWord classes (x ++ rest) = some (x, rest) := by
  induction hx with
  | nil => rfl
  | cons hc _ ih =>
    rw [List.cons_append, splitWord, if_pos hc, ih]
    rfl

/-- A word of single letters takes them, where a text begins with them. -/
theorem splitWord_letters [DecidableEq χ] (letters rest : List χ) :
    splitWord (letters.map fun c d => decide (d = c)) rest =
      if letters <+: rest then some (letters, rest.drop letters.length) else none := by
  induction letters generalizing rest with
  | nil => simp [splitWord]
  | cons c letters ih =>
    cases rest with
    | nil => simp [splitWord]
    | cons d rest =>
      rw [List.map_cons, splitWord, ih]
      by_cases hd : d = c
      · subst hd
        by_cases hrest : letters <+: rest <;> simp [hrest]
      · simp [hd, Ne.symm hd]

theorem split_cons (c : χ) (fs : List (Found χ)) :
    (fs.map (Found.cons c)).map Found.split =
      (fs.map Found.split).map (Prod.map (.cons c) id) := by
  rw [List.map_map, List.map_map]
  rfl

theorem Splits.word (classes : List (χ → Bool)) :
    Splits newline (.word classes) fun rest => (splitWord classes rest).toList := by
  intro start rest
  change (foundWord newline classes start rest).map Found.split = (splitWord classes rest).toList
  induction classes generalizing start rest with
  | nil => rfl
  | cons p classes ih =>
    cases rest with
    | nil => rfl
    | cons c rest =>
      rw [foundWord, splitWord]
      split_ifs
      · rw [split_cons, ih, Option.toList_map]
      · rfl

theorem Splits.many (p : χ → Bool) : Splits newline (.many p) (splitMany p) := by
  intro start rest
  change (foundMany newline p start rest).map Found.split = _
  induction rest generalizing start with
  | nil => rfl
  | cons c rest ih =>
    rw [foundMany, splitMany]
    split_ifs
    · rw [List.map_append, split_cons, ih]
      rfl
    · rfl

theorem Splits.alt {r s : Pattern χ} {t u : List χ → List (List χ × List χ)}
    (hr : Splits newline r t) (hs : Splits newline s u) :
    Splits newline (.alt r s) fun rest => t rest ++ u rest := fun start rest => by
  rw [found, List.map_append, hr, hs]

theorem Splits.opt {r : Pattern χ} {t : List χ → List (List χ × List χ)}
    (hr : Splits newline r t) : Splits newline (.opt r) fun rest => t rest ++ [([], rest)] :=
  fun start rest => by
  rw [found, List.map_append, hr]
  rfl

theorem Splits.seq {r s : Pattern χ} {t u : List χ → List (List χ × List χ)}
    (hr : Splits newline r t) (hs : Splits newline s u) :
    Splits newline (.seq r s) fun rest =>
      (t rest).flatMap fun x => (u x.2).map fun y => (x.1 ++ y.1, y.2) := fun start rest => by
  change _ = (t rest).flatMap _
  rw [found, List.map_flatMap, ← hr start rest, List.flatMap_map]
  refine List.flatMap_congr fun f _ => ?_
  have hleft : u (Found.split f).2 = (found newline s f.place).map Found.split :=
    (hs f.place.lineStart f.place.rest).symm
  rw [List.map_map, hleft, List.map_map]
  rfl

/-- A repetition prefers to take all it can. -/
theorem head?_splitMany (p : χ → Bool) (rest : List χ) :
    (splitMany p rest).head? = some (rest.takeWhile p, rest.dropWhile p) := by
  induction rest with
  | nil => rfl
  | cons c rest ih =>
    rw [splitMany]
    split_ifs with hc
    · rw [List.head?_append, List.head?_map, ih, List.takeWhile_cons_of_pos hc,
        List.dropWhile_cons_of_pos hc]
      rfl
    · rw [List.takeWhile_cons_of_neg hc, List.dropWhile_cons_of_neg hc]
      rfl

/-- A repetition before what refuses its letters gives nothing back. -/
theorem findSome?_splitMany {β : Type*} {p : χ → Bool} (g : List χ × List χ → Option β)
    (hrefuse : ∀ taken c rest, p c = true → g (taken, c :: rest) = none) (rest : List χ) :
    (splitMany p rest).findSome? g = g (rest.takeWhile p, rest.dropWhile p) := by
  induction rest generalizing g with
  | nil => simp [splitMany]
  | cons c rest ih =>
    rw [splitMany]
    split_ifs with hc
    · rw [List.findSome?_append, List.findSome?_map,
        ih (g ∘ Prod.map (List.cons c) id) fun taken d tail hd => hrefuse _ _ _ hd,
        List.takeWhile_cons_of_pos hc, List.dropWhile_cons_of_pos hc]
      have hback : [([], c :: rest)].findSome? g = none := by simp [hrefuse [] c rest hc]
      rw [hback, Option.or_none]
      rfl
    · rw [List.takeWhile_cons_of_neg hc, List.dropWhile_cons_of_neg hc]
      simp

/-- **A search stops at the first place where the pattern takes something**, with what it prefers
there. -/
theorem Splits.search_eq_some {r : Pattern χ} {t : List χ → List (List χ × List χ)}
    (hr : Splits newline r t) {start : Bool} {text : List χ} {f : Found χ}
    (h : search newline r start text = some f) :
    ∃ before rest, text = before ++ rest ∧ (t rest).head? = some f.split ∧
      ∀ before' rest', text = before' ++ rest' → before'.length < before.length →
        t rest' = [] := by
  have hhere : ∀ {start : Bool} {rest : List χ} {f : Found χ},
      (found newline r ⟨start, rest⟩).head? = some f → (t rest).head? = some f.split := by
    intro start rest f h
    rw [← hr start rest, List.head?_map, h]
    rfl
  induction text generalizing start with
  | nil => exact ⟨[], [], rfl, hhere h, fun _ _ _ hlt => absurd hlt (Nat.not_lt_zero _)⟩
  | cons c text ih =>
    rw [search, Option.or_eq_some_iff] at h
    rcases h with h | ⟨hnone, h⟩
    · exact ⟨[], c :: text, rfl, hhere h, fun _ _ _ hlt => absurd hlt (Nat.not_lt_zero _)⟩
    · obtain ⟨before, rest, rfl, hhead, hfirst⟩ := ih h
      refine ⟨c :: before, rest, rfl, hhead, fun before' rest' heq hlt => ?_⟩
      cases before' with
      | nil =>
        rw [← List.nil_append rest', ← heq, ← hr start, List.head?_eq_none_iff.mp hnone]
        rfl
      | cons c' before' =>
        exact hfirst before' rest' (List.cons.inj heq).2 (Nat.lt_of_succ_lt_succ hlt)

/-! ## What a pattern captures -/

variable (newline)

/-- `g` reads off a text what the pattern captures in it, wherever a line begins. -/
def Reads (r : Pattern χ) (g : List χ → Option (List χ)) : Prop :=
  ∀ start rest, (found newline r ⟨start, rest⟩).head?.map (·.captured) = (g rest).map some

variable {newline}

/-- What follows a match with a letter before it. -/
theorem flatMap_cons_append (s : Pattern χ) (c : χ) (fs : List (Found χ)) :
    ((fs.map (Found.cons c)).flatMap fun f => (found newline s f.place).map f.append) =
      (fs.flatMap fun f => (found newline s f.place).map f.append).map (Found.cons c) := by
  rw [List.flatMap_map, List.map_flatMap]
  refine List.flatMap_congr fun f _ => ?_
  rw [List.map_map]
  rfl

theorem flatMap_nothing (s : Pattern χ) (place : Place χ) :
    ([Found.nothing place].flatMap fun f => (found newline s f.place).map f.append) =
      found newline s place := by
  have hid : (Found.nothing place).append = id := funext (Found.nothing_append _)
  rw [List.flatMap_singleton, hid, List.map_id]
  rfl

/-- A letter before the matches changes none of their captures. -/
theorem head?_cons_captured (c : χ) (fs : List (Found χ)) :
    (fs.map (Found.cons c)).head?.map (·.captured) = fs.head?.map (·.captured) := by
  cases fs <;> rfl

/-- A word before what is read. -/
theorem Reads.word {s : Pattern χ} {g : List χ → Option (List χ)} (hs : Reads newline s g)
    (classes : List (χ → Bool)) :
    Reads newline (.seq (.word classes) s) fun rest =>
      (splitWord classes rest).bind fun x => g x.2 := by
  intro start rest
  change (((foundWord newline classes start rest).flatMap _).head?).map _ =
    ((splitWord classes rest).bind _).map some
  induction classes generalizing start rest with
  | nil =>
    rw [foundWord, flatMap_nothing]
    exact hs start rest
  | cons p classes ih =>
    cases rest with
    | nil => rfl
    | cons c rest =>
      rw [foundWord, splitWord]
      split_ifs
      · rw [flatMap_cons_append, head?_cons_captured, ih, Option.bind_map]
        rfl
      · rfl

/-- What is read behind a repetition: it gives letters back until what follows fits. -/
def skipping (p : χ → Bool) (g : List χ → Option (List χ)) : List χ → Option (List χ)
  | [] => g []
  | c :: rest => if p c then (skipping p g rest).or (g (c :: rest)) else g (c :: rest)

/-- **A repetition gives letters back, one at a time, until what follows fits.** -/
theorem Reads.many {s : Pattern χ} {g : List χ → Option (List χ)} (hs : Reads newline s g)
    (p : χ → Bool) : Reads newline (.seq (.many p) s) (skipping p g) := by
  intro start rest
  change (((foundMany newline p start rest).flatMap _).head?).map _ = _
  induction rest generalizing start with
  | nil =>
    rw [foundMany, flatMap_nothing]
    exact hs start []
  | cons c rest ih =>
    rw [foundMany, skipping]
    split_ifs
    · rw [List.flatMap_append, flatMap_cons_append, flatMap_nothing, List.head?_append,
        Option.map_or, head?_cons_captured, ih, hs, Option.map_or]
    · rw [flatMap_nothing]
      exact hs start (c :: rest)

/-- A repetition before what refuses its letters gives nothing back. -/
theorem skipping_eq {p : χ → Bool} {g : List χ → Option (List χ)}
    (hrefuse : ∀ c rest, p c = true → g (c :: rest) = none) (rest : List χ) :
    skipping p g rest = g (rest.dropWhile p) := by
  induction rest with
  | nil => rfl
  | cons c rest ih =>
    rw [skipping, ih]
    split_ifs with hc
    · rw [List.dropWhile_cons_of_pos hc, hrefuse c rest hc, Option.or_none]
    · rw [List.dropWhile_cons_of_neg hc]

/-! ## Up to the end of a line -/

/-- The rest of the line is of letters of the class. -/
def restOfLine (newline p : χ → Bool) (rest : List χ) : Bool :=
  (rest.takeWhile fun c => !newline c).all p

/-- A repetition up to the end of a line fits when the rest of this line, or of one that the
repetition reaches, is of its letters. -/
theorem found_many_lineEnd_ne_nil_iff {p : χ → Bool} (start : Bool) (rest : List χ) :
    found newline (.seq (.many p) .lineEnd) ⟨start, rest⟩ ≠ [] ↔
      restOfLine newline p rest = true := by
  change (foundMany newline p start rest).flatMap _ ≠ [] ↔ _
  induction rest generalizing start with
  | nil => simp [foundMany, restOfLine, found, Found.nothing]
  | cons c rest ih =>
    have hend : found newline .lineEnd ⟨start, c :: rest⟩ ≠ [] ↔ newline c = true := by
      cases hc : newline c <;> simp [found, hc]
    have hrest : restOfLine newline p (c :: rest) =
        (newline c || p c && restOfLine newline p rest) := by
      cases hc : newline c <;> simp [restOfLine, hc]
    rw [foundMany, hrest, Bool.or_eq_true, Bool.and_eq_true]
    split_ifs with hc
    · rw [List.flatMap_append, flatMap_cons_append, flatMap_nothing, ne_eq, List.append_eq_nil_iff,
        List.map_eq_nil_iff, not_and_or, ← ne_eq, ← ne_eq, ih, hend]
      tauto
    · rw [flatMap_nothing, hend]
      tauto

/-! ## Groups -/

/-- The pattern has no group. -/
def groupless : Pattern χ → Bool
  | .lineStart | .lineEnd | .word _ | .many _ => true
  | .seq r s | .alt r s => r.groupless && s.groupless
  | .opt r => r.groupless
  | .group _ => false

theorem captured_of_foundWord {classes : List (χ → Bool)} {start : Bool} {rest : List χ}
    {f : Found χ} (hf : f ∈ foundWord newline classes start rest) : f.captured = none := by
  induction classes generalizing start rest f with
  | nil =>
    rw [List.mem_singleton.mp hf]
    rfl
  | cons p classes ih =>
    cases rest with
    | nil => simp [foundWord] at hf
    | cons c rest =>
      rw [foundWord] at hf
      split_ifs at hf
      · obtain ⟨g, hg, rfl⟩ := List.mem_map.mp hf
        exact (ih hg : g.captured = none)
      · simp at hf

theorem captured_of_foundMany {p : χ → Bool} {start : Bool} {rest : List χ} {f : Found χ}
    (hf : f ∈ foundMany newline p start rest) : f.captured = none := by
  induction rest generalizing start f with
  | nil =>
    rw [List.mem_singleton.mp hf]
    rfl
  | cons c rest ih =>
    rw [foundMany] at hf
    split_ifs at hf
    · obtain hmore | hstop := List.mem_append.mp hf
      · obtain ⟨g, hg, rfl⟩ := List.mem_map.mp hmore
        exact (ih hg : g.captured = none)
      · rw [List.mem_singleton.mp hstop]
        rfl
    · rw [List.mem_singleton.mp hf]
      rfl

/-- A pattern without groups captures nothing. -/
theorem captured_of_groupless {r : Pattern χ} (hr : r.groupless = true) {place : Place χ}
    {f : Found χ} (hf : f ∈ found newline r place) : f.captured = none := by
  induction r generalizing place f with
  | lineStart | lineEnd =>
    rw [found] at hf
    split_ifs at hf
    · rw [List.mem_singleton.mp hf]
      rfl
    · simp at hf
  | word classes => exact captured_of_foundWord hf
  | many p => exact captured_of_foundMany hf
  | seq r s ihr ihs =>
    obtain ⟨hr, hs⟩ := Bool.and_eq_true_iff.mp hr
    obtain ⟨g, hg, hfollow⟩ := List.mem_flatMap.mp hf
    obtain ⟨h, hh, rfl⟩ := List.mem_map.mp hfollow
    rw [Found.append, ihs hs hh, ihr hr hg]
    rfl
  | alt r s ihr ihs =>
    obtain ⟨hr, hs⟩ := Bool.and_eq_true_iff.mp hr
    exact (List.mem_append.mp hf).elim (ihr hr) (ihs hs)
  | opt r ih =>
    obtain hmatch | hstop := List.mem_append.mp hf
    · exact ih hr hmatch
    · rw [List.mem_singleton.mp hstop]
      rfl
  | group r => exact absurd hr Bool.false_ne_true

/-- **What a group captures** before a pattern without groups: the first way to match the group
that leaves what the pattern fits. -/
theorem Reads.group {r s : Pattern χ} {t : List χ → List (List χ × List χ)} {k : List χ → Bool}
    (hr : Splits newline r t) (hs : s.groupless = true)
    (hfits : ∀ start rest, found newline s ⟨start, rest⟩ ≠ [] ↔ k rest = true) :
    Reads newline (.seq (.group r) s) fun rest =>
      (t rest).findSome? fun x => if k x.2 then some x.1 else none := by
  intro start rest
  change ((found newline (.seq (.group r) s) ⟨start, rest⟩).head?).map _ =
    ((t rest).findSome? _).map some
  rw [← hr start rest, List.findSome?_map, found, found, List.flatMap_map, List.head?_flatMap,
    List.map_findSome?, List.map_findSome?]
  refine congrArg (List.findSome? · (found newline r ⟨start, rest⟩)) (funext fun f => ?_)
  have hk := hfits f.place.lineStart f.place.rest
  cases hmatch : found newline s f.place with
  | nil =>
    have hno : k f.place.rest = false := by simpa [hmatch] using hk
    simp [hmatch, hno, Found.split]
  | cons g gs =>
    have hyes : k f.place.rest = true := by simpa [hmatch] using hk
    have hcaptured : g.captured = none :=
      captured_of_groupless hs (hmatch ▸ List.mem_cons_self (a := g) (l := gs))
    simp [hmatch, hyes, Found.append, hcaptured, Found.split]

/-- A group at the end of a pattern. -/
theorem Reads.group_last {r : Pattern χ} {t : List χ → List (List χ × List χ)}
    (hr : Splits newline r t) :
    Reads newline (.group r) fun rest => (t rest).head?.map Prod.fst := by
  intro start rest
  change ((found newline (.group r) ⟨start, rest⟩).head?).map _ = ((t rest).head?.map _).map some
  rw [← hr start rest, found, List.head?_map, List.head?_map, Option.map_map, Option.map_map,
    Option.map_map]
  rfl

/-- **A pattern anchored to the beginning of a line captures what it reads on the first line it
matches at.** -/
theorem capture_lineStart {r : Pattern χ} {g : List χ → Option (List χ)} (hr : Reads newline r g)
    (text : List χ) :
    capture newline (.seq .lineStart r) text = (linesOf newline text).findSome? g := by
  rw [capture, search_lineStart]
  induction linesOf newline text with
  | nil => rfl
  | cons line rest ih =>
    have hline := hr true line
    rw [List.findSome?_cons, List.findSome?_cons]
    cases hmatch : (found newline r ⟨true, line⟩).head? with
    | none =>
      have hno : g line = none := by simpa [hmatch] using hline.symm
      rw [hno]
      exact ih
    | some f =>
      obtain ⟨captured, hread, hcaptured⟩ : ∃ captured, g line = some captured ∧
          some captured = f.captured := by
        simpa [hmatch] using hline.symm
      rw [hread]
      exact hcaptured.symm

end Pattern

end Machinery
