import AgentProof.Benchmark.Contradictions

/-!
# Benchmark/Mentions — the ids that a text names

An id of digits is named where it stands and no further digit follows.  `timesNamed` counts the
places, over texts that are put together at a letter that no id has inside
(`timesNamed_append`).

`create_missing_customer_information_variant` takes one mention out, the first: the id stays in the
input exactly if it is named more than once (`createMissingCustomer_hides_iff`).
-/

open Machinery Machinery.Pattern

namespace AgentProof

variable [UnicodeData]

/-! ## Where an id is named -/

/-- The text begins with the id, and not with a longer one. -/
def namedHere (id text : List Char) : Bool :=
  decide (id <+: text) && !(text.drop id.length).head?.any isDecimal

/-- How often a text names an id. -/
def timesNamed (id : List Char) : List Char → ℕ
  | [] => 0
  | c :: rest => (if namedHere id (c :: rest) then 1 else 0) + timesNamed id rest

theorem timesNamed_cons {id : List Char} (c : Char) (rest : List Char) : timesNamed id (c :: rest) =
    (if namedHere id (c :: rest) then 1 else 0) + timesNamed id rest := rfl

/-- **A text names an id** somewhere, and no digit follows it there. -/
def Names (text id : List Char) : Prop :=
  ∃ before after, text = before ++ (id ++ after) ∧ after.head?.any isDecimal = false

theorem namedHere_iff {id text : List Char} : namedHere id text = true ↔
    ∃ after, text = id ++ after ∧ after.head?.any isDecimal = false := by
  rw [namedHere, Bool.and_eq_true, decide_eq_true_eq, Bool.not_eq_true']
  constructor
  · rintro ⟨⟨after, rfl⟩, hafter⟩
    exact ⟨after, rfl, by rwa [List.drop_left] at hafter⟩
  · rintro ⟨after, rfl, hafter⟩
    exact ⟨List.prefix_append id after, by rwa [List.drop_left]⟩

/-- **A text names an id** when it does so at least once. -/
theorem names_iff {id text : List Char} (hid : id ≠ []) :
    Names text id ↔ timesNamed id text ≠ 0 := by
  induction text with
  | nil => simp [Names, timesNamed, hid]
  | cons c rest ih =>
    have hcons : Names (c :: rest) id ↔ namedHere id (c :: rest) = true ∨ Names rest id := by
      rw [namedHere_iff]
      constructor
      · rintro ⟨_ | ⟨c', before⟩, after, heq, hafter⟩
        · exact .inl ⟨after, heq, hafter⟩
        · exact .inr ⟨before, after, (List.cons.inj heq).2, hafter⟩
      · rintro (⟨after, heq, hafter⟩ | ⟨before, after, rfl, hafter⟩)
        · exact ⟨[], after, heq, hafter⟩
        · exact ⟨c :: before, after, rfl, hafter⟩
    rw [hcons, ih, timesNamed]
    split_ifs with hhere <;> simp [hhere]

/-- Letters that no id begins with name nothing. -/
theorem timesNamed_skip {c : Char} {id skipped rest : List Char} (hskip : c ∉ skipped) :
    timesNamed (c :: id) (skipped ++ rest) = timesNamed (c :: id) rest := by
  induction skipped with
  | nil => rfl
  | cons d skipped ih =>
    obtain ⟨hne, hskip⟩ := not_or.mp (List.mem_cons.not.mp hskip)
    have hnot : namedHere (c :: id) (d :: (skipped ++ rest)) = false := by
      rw [Bool.eq_false_iff, Ne, namedHere_iff]
      rintro ⟨after, heq, -⟩
      exact hne (List.cons.inj heq).1.symm
    rw [List.cons_append, timesNamed, hnot, ih hskip, if_neg Bool.false_ne_true, Nat.zero_add]

/-- **Texts put together** at a letter that ends every id: it is no digit, and ids do not have it
inside. -/
theorem timesNamed_append {c d : Char} {id after : List Char} (hid : d ∉ id)
    (hd : isDecimal d = false) (before : List Char) :
    timesNamed (c :: id) (before ++ d :: after) =
      timesNamed (c :: id) before + timesNamed (c :: id) (d :: after) := by
  induction before with
  | nil => simp [timesNamed]
  | cons b before ih =>
    have hsame : namedHere (c :: id) (b :: (before ++ d :: after)) =
        namedHere (c :: id) (b :: before) := by
      rw [Bool.eq_iff_iff, namedHere_iff, namedHere_iff]
      constructor
      · rintro ⟨tail, heq, htail⟩
        obtain ⟨rfl, hrest⟩ := List.cons.inj heq
        rcases List.append_eq_append_iff.mp hrest with ⟨inside, rfl, hinside⟩ | ⟨rest, rfl, htail'⟩
        · cases inside with
          | nil =>
            refine ⟨[], by simp, rfl⟩
          | cons d' inside =>
            obtain ⟨rfl, -⟩ := List.cons.inj hinside
            exact absurd (by simp) hid
        · refine ⟨rest, rfl, ?_⟩
          cases rest with
          | nil => rfl
          | cons e rest => simpa [htail'] using htail
      · rintro ⟨tail, heq, htail⟩
        obtain ⟨rfl, rfl⟩ := List.cons.inj heq
        refine ⟨tail ++ d :: after, by simp, ?_⟩
        cases tail with
        | nil => simpa using hd
        | cons e tail => simpa using htail
    rw [List.cons_append, timesNamed_cons, hsame, ih, timesNamed_cons b before, Nat.add_assoc]

/-! ## The first mention -/

/-- What letters before a number take of a text, and leave. -/
def splitNumbered (letters rest : List Char) : List (List Char × List Char) :=
  if letters <+: rest then
    (splitWord [isDecimal] (rest.drop letters.length)).toList.flatMap fun first =>
      (splitMany isDecimal first.2).map (Prod.map (letters ++ first.1 ++ ·) id)
  else []

theorem Splits.numbered (newline : Char → Bool) (letters : List Char) :
    Splits newline (.seq (.word (letters.map fun c d => decide (d = c)))
      (.seq (.word [isDecimal]) (.many isDecimal))) (splitNumbered letters) := by
  intro start rest
  rw [((Splits.word _).seq ((Splits.word _).seq (Splits.many _))) start rest]
  beta_reduce
  rw [splitWord_letters, splitNumbered]
  split_ifs with hprefix
  · simp only [Option.toList_some, List.flatMap_cons, List.flatMap_nil, List.append_nil,
      List.map_flatMap, List.map_map]
    refine List.flatMap_congr fun first _ => List.map_congr_left fun x _ => ?_
    exact Prod.ext (List.append_assoc _ _ _).symm rfl
  · rfl

/-- **What is preferred**: the letters, and all the digits that follow. -/
theorem head?_splitNumbered {letters rest : List Char} {x : List Char × List Char}
    (h : (splitNumbered letters rest).head? = some x) :
    ∃ digits after, rest = letters ++ (digits ++ after) ∧ digits ≠ [] ∧
      (∀ d ∈ digits, isDecimal d = true) ∧ after.head?.any isDecimal = false ∧
      x = (letters ++ digits, after) := by
  rw [splitNumbered] at h
  split_ifs at h with hprefix
  · obtain ⟨tail, rfl⟩ := hprefix
    rw [List.drop_left] at h
    cases tail with
    | nil => simp [splitWord] at h
    | cons d tail =>
      by_cases hd : isDecimal d = true
      · simp [splitWord, hd, head?_splitMany] at h
        refine ⟨d :: tail.takeWhile isDecimal, tail.dropWhile isDecimal, ?_, by simp, ?_, ?_, ?_⟩
        · rw [List.cons_append, List.takeWhile_append_dropWhile]
        · exact List.forall_mem_cons.mpr ⟨hd, fun e he => List.mem_takeWhile_imp he⟩
        · cases hdrop : tail.dropWhile isDecimal with
          | nil => rfl
          | cons e after =>
            have hhead := List.head?_dropWhile_not isDecimal tail
            simpa [hdrop] using hhead
        · exact h.symm
      · simp [splitWord, hd] at h
  · exact absurd h (by simp)

/-- A number behind the letters is taken. -/
theorem splitNumbered_ne_nil (letters rest : List Char) {d : Char} (hd : isDecimal d = true) :
    splitNumbered letters (letters ++ d :: rest) ≠ [] := by
  intro hnil
  have hhead : (splitNumbered letters (letters ++ d :: rest)).head? ≠ none := by
    simp [splitNumbered, splitWord, hd, head?_splitMany]
  exact hhead (by rw [hnil]; rfl)

/-! ## The mention that is taken out -/

/-- What stands before the id of a mention. -/
def mentionWord : List Char := "Customer ".toList

/-- What an id begins with. -/
def idLetters : List Char := "CUST-".toList

/-- The id in a mention. -/
def mentionedId (mention : List Char) : List Char := mention.drop mentionWord.length

/-- **The first mention** in a text, with all its digits. -/
theorem search_customerMention {text : List Char} {mention : Found Char}
    (h : search (· = '\n') customerMentionPattern true text = some mention) :
    ∃ before digits after, text = before ++ (mention.text ++ after) ∧
      mention.text = mentionWord ++ (idLetters ++ digits) ∧ digits ≠ [] ∧
      (∀ d ∈ digits, isDecimal d = true) ∧ after.head?.any isDecimal = false ∧
      ∀ before' rest, text = before' ++ rest → before'.length < before.length →
        ¬ mention.text <+: rest := by
  obtain ⟨before, rest, rfl, hhead, hfirst⟩ :=
    (Splits.numbered _ "Customer CUST-".toList).search_eq_some h
  obtain ⟨digits, after, rfl, hne, hdigits, hafter, hsplit⟩ := head?_splitNumbered hhead
  have htext : mention.text = "Customer CUST-".toList ++ digits := congrArg Prod.fst hsplit
  refine ⟨before, digits, after, by rw [htext, List.append_assoc], htext, hne, hdigits, hafter,
    fun before' rest heq hlt hprefix => ?_⟩
  obtain ⟨d, digits, rfl⟩ := List.exists_cons_of_ne_nil hne
  obtain ⟨tail, rfl⟩ := hprefix
  refine splitNumbered_ne_nil "Customer CUST-".toList (digits ++ tail)
    (hdigits d List.mem_cons_self) ?_
  rw [← hfirst before' _ heq hlt, htext, List.append_assoc]
  rfl

/-- A letter is none of the digits. -/
theorem letter_notMem (hletters : ∀ c : Char, c.isAlpha = true → isDecimal c = false)
    {digits : List Char} (hdigits : ∀ d ∈ digits, isDecimal d = true) {c : Char}
    (hc : c.isAlpha = true) : c ∉ digits := fun hmem => by
  have hdecimal := hdigits c hmem
  rw [hletters c hc] at hdecimal
  exact Bool.false_ne_true hdecimal

/-- A mention names its id once: behind the word, which names nothing itself. -/
theorem timesNamed_mentionWord {digits after : List Char} (hid : 'C' ∉ "UST-".toList ++ digits)
    (hafter : after.head?.any isDecimal = false) :
    timesNamed ('C' :: ("UST-".toList ++ digits))
      ((mentionWord ++ 'C' :: ("UST-".toList ++ digits)) ++ after) =
        1 + timesNamed ('C' :: ("UST-".toList ++ digits)) after := by
  have hhere : namedHere ('C' :: ("UST-".toList ++ digits))
      ('C' :: (("UST-".toList ++ digits) ++ after)) = true := namedHere_iff.mpr ⟨after, rfl, hafter⟩
  have hmention : timesNamed ('C' :: ("UST-".toList ++ digits))
      ('C' :: (("UST-".toList ++ digits) ++ after)) =
        1 + timesNamed ('C' :: ("UST-".toList ++ digits)) after := by
    rw [timesNamed_cons, if_pos hhere, timesNamed_skip hid]
  have hnot : namedHere ('C' :: ("UST-".toList ++ digits)) ('C' :: ("ustomer ".toList ++
      ('C' :: (("UST-".toList ++ digits) ++ after)))) = false := by
    rw [Bool.eq_false_iff, Ne, namedHere_iff]
    rintro ⟨tail, heq, -⟩
    simp at heq
  have heq : (mentionWord ++ 'C' :: ("UST-".toList ++ digits)) ++ after = 'C' ::
      ("ustomer ".toList ++ 'C' :: (("UST-".toList ++ digits) ++ after)) := rfl
  rw [heq, timesNamed_cons, hnot, timesNamed_skip (by decide), hmention,
    if_neg Bool.false_ne_true, Nat.zero_add]

/-- A mention names its id once, and what stands for it does not. -/
theorem timesNamed_mention (hletters : ∀ c : Char, c.isAlpha = true → isDecimal c = false)
    {digits after : List Char} (hdigits : ∀ d ∈ digits, isDecimal d = true)
    (hafter : after.head?.any isDecimal = false) (before : List Char) :
    timesNamed (idLetters ++ digits) (before ++ ("A shopper".toList ++ after)) + 1 =
      timesNamed (idLetters ++ digits)
        (before ++ ((mentionWord ++ (idLetters ++ digits)) ++ after)) := by
  have hCid : 'C' ∉ "UST-".toList ++ digits := by
    simpa using letter_notMem hletters hdigits (by decide)
  have hAid : 'A' ∉ "UST-".toList ++ digits := by
    simpa using letter_notMem hletters hdigits (by decide)
  have hid : idLetters ++ digits = 'C' :: ("UST-".toList ++ digits) := rfl
  have hshopper : timesNamed ('C' :: ("UST-".toList ++ digits)) ("A shopper".toList ++ after) =
      timesNamed ('C' :: ("UST-".toList ++ digits)) after := timesNamed_skip (by decide)
  have hbefore : timesNamed ('C' :: ("UST-".toList ++ digits))
      (before ++ ("A shopper".toList ++ after)) =
        timesNamed ('C' :: ("UST-".toList ++ digits)) before +
          timesNamed ('C' :: ("UST-".toList ++ digits)) ("A shopper".toList ++ after) :=
    timesNamed_append hAid (hletters 'A' (by decide)) before
  have hbefore' : timesNamed ('C' :: ("UST-".toList ++ digits))
      (before ++ ((mentionWord ++ 'C' :: ("UST-".toList ++ digits)) ++ after)) =
        timesNamed ('C' :: ("UST-".toList ++ digits)) before +
          timesNamed ('C' :: ("UST-".toList ++ digits))
            ((mentionWord ++ 'C' :: ("UST-".toList ++ digits)) ++ after) :=
    timesNamed_append hCid (hletters 'C' (by decide)) before
  rw [hid, hbefore, hbefore', hshopper, timesNamed_mentionWord hCid hafter]
  omega

variable [RandomGenerator]

/-- **One mention is taken out**: the variant's input names the id once less. -/
theorem createMissingCustomer_timesNamed
    (hletters : ∀ c : Char, c.isAlpha = true → isDecimal c = false) {task : BenchmarkTask}
    (randomSeed : ℤ) {mention : Found Char}
    (h : search (· = '\n') customerMentionPattern true task.input.toList = some mention) :
    timesNamed (mentionedId mention.text)
        (createMissingCustomerInformationVariant task randomSeed).task.input.toList + 1 =
      timesNamed (mentionedId mention.text) task.input.toList := by
  obtain ⟨before, digits, after, hinput, htext, -, hdigits, hafter, hfirst⟩ :=
    search_customerMention h
  have hid : mentionedId mention.text = idLetters ++ digits := by
    rw [mentionedId, htext, List.drop_left]
  have hmention : mention.text ≠ [] := by
    rw [htext]
    exact List.append_ne_nil_of_left_ne_nil (by decide) _
  have hvariant :
      (createMissingCustomerInformationVariant task randomSeed).task.input.toList =
        before ++ ("A shopper".toList ++ after) := by
    simp only [createMissingCustomerInformationVariant, h]
    change (replaceOnce task.input (String.ofList mention.text) "A shopper").toList = _
    rw [replaceOnce, String.toList_ofList, String.toList_ofList, hinput]
    exact replacedOnce_append hmention (hinput ▸ hfirst)
  rw [hvariant, hid, hinput, htext]
  exact timesNamed_mention hletters hdigits hafter before

/-- **The customer is hidden exactly if the input names the id once**: the first mention is taken
out, and no other. -/
theorem createMissingCustomer_hides_iff
    (hletters : ∀ c : Char, c.isAlpha = true → isDecimal c = false) {task : BenchmarkTask}
    {randomSeed : ℤ} {mention : Found Char}
    (h : search (· = '\n') customerMentionPattern true task.input.toList = some mention) :
    (createMissingCustomerInformationVariant task randomSeed).validatorResult = true ∧
      (¬ Names (createMissingCustomerInformationVariant task randomSeed).task.input.toList
          (mentionedId mention.text) ↔
        timesNamed (mentionedId mention.text) task.input.toList = 1) := by
  obtain ⟨-, digits, -, -, htext, -, -, -, -⟩ := search_customerMention h
  have hid : mentionedId mention.text ≠ [] := by
    rw [mentionedId, htext, List.drop_left]
    exact List.append_ne_nil_of_left_ne_nil (by decide) _
  refine ⟨?_, ?_⟩
  · simp only [createMissingCustomerInformationVariant, h]
    rfl
  · rw [names_iff hid, not_not, ← createMissingCustomer_timesNamed hletters randomSeed h]
    omega

omit [UnicodeData] [RandomGenerator] in
/-- The customer of the seed task is named once, and hidden. -/
theorem createMissingCustomer_hides_iff_seed :
    let _ := leastDraws
    let _ := asciiDigits
    ¬ Names (createMissingCustomerInformationVariant customerRefundWithinPolicy 7).task.input.toList
      "CUST-001".toList := by
  intro _ _
  have hletters : ∀ c : Char, c.isAlpha = true → isDecimal c = false := by
    intro c hc
    have hc' : 65 ≤ c.toNat := by
      rcases Bool.or_eq_true_iff.mp hc with hupper | hlower
      · exact (of_decide_eq_true hupper).1
      · exact le_trans (by decide) (of_decide_eq_true (Bool.and_eq_true_iff.mp hlower).1)
    change (if 48 ≤ c.toNat ∧ c.toNat ≤ 57 then some (c.toNat - 48) else none).isSome = false
    rw [if_neg (by omega)]
    rfl
  have hsearch : ∃ mention ∈
      search (· = '\n') customerMentionPattern true customerRefundWithinPolicy.input.toList,
      mentionedId mention.text = "CUST-001".toList ∧
      timesNamed (mentionedId mention.text) customerRefundWithinPolicy.input.toList = 1 := by
    decide +kernel
  obtain ⟨mention, hmention, hid, hone⟩ := hsearch
  rw [← hid]
  exact (createMissingCustomer_hides_iff hletters hmention).2.mpr hone

/-- A task that names its customer twice. -/
def namedTwice : BenchmarkTask :=
  { addressTask with
    input := "Customer CUST-001 asks for the address on file. CUST-001 is waiting." }

omit [UnicodeData] [RandomGenerator] in
/-- **A customer who is named twice is not hidden.** -/
theorem not_createMissingCustomer_hides :
    let _ := leastDraws
    let _ := asciiDigits
    ¬ ∀ (task : BenchmarkTask) (randomSeed : ℤ) (mention : Found Char),
      search (· = '\n') customerMentionPattern true task.input.toList = some mention →
      (createMissingCustomerInformationVariant task randomSeed).validatorResult = true →
      ¬ Names (createMissingCustomerInformationVariant task randomSeed).task.input.toList
        (mentionedId mention.text) := by
  intro _ _ h
  have hnamed : ∃ mention ∈ search (· = '\n') customerMentionPattern true namedTwice.input.toList,
      mentionedId mention.text ≠ [] ∧
      timesNamed (mentionedId mention.text)
        (createMissingCustomerInformationVariant namedTwice 7).task.input.toList ≠ 0 := by
    decide +kernel
  obtain ⟨mention, hmention, hid, hnamed⟩ := hnamed
  exact h namedTwice 7 mention hmention (by decide +kernel) ((names_iff hid).mpr hnamed)

end AgentProof
