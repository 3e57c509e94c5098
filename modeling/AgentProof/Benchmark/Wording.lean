import AgentProof.Benchmark.Contradictions
import AgentProof.Machinery.Matches

/-!
# Benchmark/Wording — the facts that a reworded input states

What an input states is read off it by two patterns: the ids of customers, orders and tickets, and
the dollar amounts.  Neither pattern has a small letter or a blank, so a word of these keeps the
matches before it and behind it apart, and another such word in its place changes none
(`findAll_reworded`).  A sentence behind a blank has matches of its own only.

**The typo, paraphrase and distractor mutations keep every stated fact**
(`wording_keeps_facts`).
-/

open Machinery Machinery.Pattern

namespace AgentProof

/-! ## The facts in a text -/

section Extraction

variable [UnicodeData]

/-- `(?:CUST-|ORD-|TICK-)\d+` -/
def identifierPattern : Pattern Char :=
  .seq (.alt (.word ("CUST-".toList.map fun c d => decide (d = c)))
    (.alt (.word ("ORD-".toList.map fun c d => decide (d = c)))
      (.word ("TICK-".toList.map fun c d => decide (d = c))))) <|
    .seq (.word [isDecimal]) (.many isDecimal)

/-- The ids that a text states, in order. -/
def identifiersIn (text : String) : List (List Char) :=
  findAll (· = '\n') identifierPattern text.toList

/-- The dollar amounts that a text states, in order. -/
def dollarAmountsIn (text : String) : List (List Char) :=
  findAll (· = '\n') dollarAmountPattern text.toList

end Extraction

/-- A small letter, or a blank. -/
def wordLetter (c : Char) : Bool := c.isLower || c = ' '

/-- A pattern for facts: it has no small letter and no blank, and each of its matches has a hyphen
or a dollar sign. -/
structure FactPattern (r : Pattern Char) : Prop where
  anchorless : r.anchorless = true
  avoids : ∀ c, wordLetter c = true → r.avoids c = true
  sign : ∀ x, r.Matches x → '-' ∈ x ∨ '$' ∈ x

theorem FactPattern.not_matches_nil {r : Pattern Char} (hr : FactPattern r) : ¬ r.Matches [] :=
  fun h => by simpa using hr.sign [] h

/-! ## What a wording mutation may do -/

/-- Two wordings: they begin alike, and differ in words of small letters and blanks. -/
def Reworded (old new : List Char) : Prop :=
  ∃ shared old' new', old = shared ++ old' ∧ new = shared ++ new' ∧ old' ≠ [] ∧ new' ≠ [] ∧
    old'.all wordLetter = true ∧ new'.all wordLetter = true

/-- **Rewording changes no fact**, whatever stands before and behind. -/
theorem findAll_reworded {r : Pattern Char} (hr : FactPattern r) {old new : List Char}
    (h : Reworded old new) (before after : List Char) :
    findAll (· = '\n') r (before ++ (new ++ after)) =
      findAll (· = '\n') r (before ++ (old ++ after)) := by
  obtain ⟨shared, old', new', rfl, rfl, hold, hnew, holdWord, hnewWord⟩ := h
  have hcut : ∀ word : List Char, word ≠ [] → word.all wordLetter = true →
      findAll (· = '\n') r (before ++ ((shared ++ word) ++ after)) =
        findAll (· = '\n') r (before ++ shared) ++ findAll (· = '\n') r after := by
    intro word hne hword
    rw [List.append_assoc, ← List.append_assoc]
    exact findAll_cut hr.anchorless hr.not_matches_nil hne
      (fun c hc => hr.avoids c (List.all_eq_true.mp hword c hc)) _ _
  rw [hcut new' hnew hnewWord, hcut old' hold holdWord]

/-- **A sentence without a hyphen or a dollar sign adds no fact.** -/
theorem findAll_sentence {r : Pattern Char} (hr : FactPattern r) (text : List Char)
    {sentence : List Char} (hsentence : '-' ∉ sentence ∧ '$' ∉ sentence) :
    findAll (· = '\n') r (text ++ ([' '] ++ sentence)) = findAll (· = '\n') r text := by
  have hnone : findAll (· = '\n') r sentence = [] := by
    refine List.eq_nil_iff_forall_not_mem.mpr fun x hx => ?_
    obtain ⟨hpart, hmatch⟩ := mem_findAll hx
    exact (hr.sign x hmatch).elim (fun h => hsentence.1 (hpart.mem h))
      fun h => hsentence.2 (hpart.mem h)
  rw [findAll_cut hr.anchorless hr.not_matches_nil (List.cons_ne_nil _ _) (fun c hc => ?_), hnone,
    List.append_nil]
  obtain rfl := List.mem_singleton.mp hc
  exact hr.avoids _ rfl

/-- Each entry of a table rewords its phrase. -/
theorem reworded_of_mem {entry : String × String}
    (h : entry ∈ typoReplacements ∨ entry ∈ paraphraseReplacements) :
    Reworded entry.1.toList entry.2.toList := by
  have hword : ∀ old new : List Char, old ≠ [] → new ≠ [] → old.all wordLetter = true →
      new.all wordLetter = true → Reworded old new := fun old new hold hnew holdWord hnewWord =>
    ⟨[], old, new, rfl, rfl, hold, hnew, holdWord, hnewWord⟩
  simp only [typoReplacements, paraphraseReplacements, List.mem_cons, List.not_mem_nil,
    or_false] at h
  rcases h with (rfl | rfl | rfl | rfl) | (rfl | rfl | rfl | rfl | rfl)
  · -- the capital letter is shared
    exact ⟨['C'], "ustomer".toList, "ustmer".toList, rfl, rfl, by decide, by decide, by decide,
      by decide⟩
  all_goals exact hword _ _ (by decide) (by decide) (by decide) (by decide)

/-! ## What the mutations keep -/

section Mutations

variable [RandomGenerator]

/-- **A replaced phrase changes no fact.** -/
theorem replacePhrase_keeps {r : Pattern Char} (hr : FactPattern r)
    {replacements : List (String × String)}
    (hreplacements : ∀ entry ∈ replacements, Reworded entry.1.toList entry.2.toList)
    (label mutationType : String) (task : BenchmarkTask) (randomSeed : ℤ) :
    findAll (· = '\n') r
        (replacePhrase replacements label mutationType task randomSeed).task.input.toList =
      findAll (· = '\n') r task.input.toList := by
  rw [replacePhrase]
  split_ifs with hempty
  · rfl
  · have hchoice := choice_mem randomSeed [] _ hempty
    generalize choice randomSeed [] _ hempty = entry at hchoice ⊢
    obtain ⟨phrase, replacement⟩ := entry
    obtain ⟨hmem, hoccurs⟩ := List.mem_filter.mp hchoice
    have hpart : phrase.toList <:+: task.input.toList := by simpa [occursIn] using hoccurs
    obtain ⟨before, after, hinput, hreplaced⟩ := exists_replacedOnce hpart replacement.toList
    change findAll (· = '\n') r (replaceOnce task.input phrase replacement).toList = _
    rw [replaceOnce, String.toList_ofList, hreplaced, hinput]
    exact findAll_reworded hr (hreplacements _ hmem) before after

/-- An irrelevant sentence adds no fact. -/
theorem injectDistractorInformation_keeps {r : Pattern Char} (hr : FactPattern r)
    (task : BenchmarkTask) (randomSeed : ℤ) :
    findAll (· = '\n') r (injectDistractorInformation task randomSeed).task.input.toList =
      findAll (· = '\n') r task.input.toList := by
  have hsentence : ∀ sentence ∈ distractorSentences,
      '-' ∉ sentence.toList ∧ '$' ∉ sentence.toList := by
    simp [distractorSentences]
  have htext : ∀ sentence : String, (s!"{task.input} {sentence}").toList =
      task.input.toList ++ ([' '] ++ sentence.toList) := by
    intro sentence
    rw [String.toList_append, String.toList_append, List.append_assoc]
    rfl
  refine (congrArg (findAll _ r) (htext _)).trans ?_
  exact findAll_sentence hr _ (hsentence _ (choice_mem randomSeed [] distractorSentences _))

end Mutations

variable [UnicodeData]

/-! ## The two patterns -/

theorem isDecimal_of_wordLetter (hascii : DecimalAscii) {c : Char} (hc : wordLetter c = true) :
    isDecimal c = false := by
  rw [wordLetter, Bool.or_eq_true, decide_eq_true_eq] at hc
  rcases hc with hlower | rfl
  · obtain ⟨ha, hz⟩ := Bool.and_eq_true_iff.mp hlower
    have ha : 97 ≤ c.toNat := of_decide_eq_true ha
    have hz : c.toNat ≤ 122 := of_decide_eq_true hz
    rw [hascii.isDecimal_eq (by omega), Char.isDigit, Bool.and_eq_false_iff]
    exact .inr (decide_eq_false (fun h : c.toNat ≤ 57 => by omega))
  · exact isDecimal_of_isSpace (by decide)

omit [UnicodeData] in
/-- A small letter or a blank is none of the other characters. -/
theorem ne_of_wordLetter {c : Char} (hc : wordLetter c = true) {d : Char}
    (hd : wordLetter d = false) : c ≠ d := by
  rintro rfl
  rw [hc] at hd
  exact absurd hd Bool.noConfusion

theorem factPattern_identifier (hascii : DecimalAscii) : FactPattern identifierPattern where
  anchorless := rfl
  avoids c hc := by
    have hletters : ∀ letters : List Char, letters.all (fun d => !wordLetter d) = true →
        (word (letters.map fun c d => decide (d = c))).avoids c = true := by
      intro letters hall
      rw [avoids, List.all_map, List.all_eq_true]
      intro d hd
      have hne := ne_of_wordLetter hc (d := d) (by simpa using List.all_eq_true.mp hall d hd)
      simpa using hne
    have hdigits : ((word [isDecimal]).seq (.many isDecimal)).avoids c = true := by
      simp [avoids, isDecimal_of_wordLetter hascii hc]
    exact Bool.and_eq_true_iff.mpr ⟨Bool.and_eq_true_iff.mpr ⟨hletters _ (by decide),
      Bool.and_eq_true_iff.mpr ⟨hletters _ (by decide), hletters _ (by decide)⟩⟩, hdigits⟩
  sign x hx := by
    obtain ⟨y, z, rfl, hy, -⟩ := hx
    refine .inl (List.mem_append_left _ ?_)
    rcases hy with hy | hy | hy <;> rw [matches_letters_iff.mp hy] <;> decide

theorem factPattern_dollarAmount (hascii : DecimalAscii) : FactPattern dollarAmountPattern where
  anchorless := rfl
  avoids c hc := by
    have hsign : c ≠ '$' := ne_of_wordLetter hc (by decide)
    have hpoint : c ≠ '.' := ne_of_wordLetter hc (by decide)
    simp [dollarAmountPattern, avoids, isDecimal_of_wordLetter hascii hc, hsign, hpoint]
  sign x hx := by
    obtain ⟨_, _, rfl, _ | ⟨hsign, _⟩, -⟩ := hx
    exact .inr (List.mem_append_left _ (of_decide_eq_true hsign ▸ .head _))

variable [RandomGenerator]

/-- **Wording mutations keep every stated fact.** -/
theorem wording_keeps_facts (hascii : DecimalAscii) (task : BenchmarkTask) (randomSeed : ℤ)
    {mutation : BenchmarkTask → ℤ → AdversarialVariant}
    (hmutation : mutation ∈ [injectTypos, injectParaphrase, injectDistractorInformation]) :
    identifiersIn (mutation task randomSeed).task.input = identifiersIn task.input ∧
      dollarAmountsIn (mutation task randomSeed).task.input = dollarAmountsIn task.input := by
  have hkeeps : ∀ r, FactPattern r →
      findAll (· = '\n') r (mutation task randomSeed).task.input.toList =
        findAll (· = '\n') r task.input.toList := by
    intro r hr
    simp only [List.mem_cons, List.not_mem_nil, or_false] at hmutation
    rcases hmutation with rfl | rfl | rfl
    · exact replacePhrase_keeps hr (fun entry h => reworded_of_mem (.inl h)) _ _ task randomSeed
    · exact replacePhrase_keeps hr (fun entry h => reworded_of_mem (.inr h)) _ _ task randomSeed
    · exact injectDistractorInformation_keeps hr task randomSeed
  exact ⟨hkeeps _ (factPattern_identifier hascii), hkeeps _ (factPattern_dollarAmount hascii)⟩

/-- A task whose input has ids and amounts next to the words that are misspelled. -/
def adjoiningTask : BenchmarkTask :=
  { addressTask with
    input := "CUST-001refund$7.995ticketORD-7 arrived damaged" }

omit [UnicodeData] [RandomGenerator] in
/-- The typo of a task that names ids and amounts next to the word it is in. -/
theorem wording_keeps_facts_adjoiningTask :
    let _ := leastDraws
    let _ := asciiDigits
    identifiersIn (injectTypos adjoiningTask 3).task.input = ["CUST-001".toList, "ORD-7".toList] ∧
      dollarAmountsIn (injectTypos adjoiningTask 3).task.input = ["$7.99".toList] := by
  intro _ _
  obtain ⟨hids, hamounts⟩ :=
    wording_keeps_facts decimalAscii_asciiDigits adjoiningTask 3 (.head _)
  exact ⟨hids.trans (by decide +kernel), hamounts.trans (by decide +kernel)⟩

end AgentProof
