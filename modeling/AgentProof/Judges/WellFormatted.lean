import AgentProof.Judges.Responses
import AgentProof.Machinery.Matches

/-!
# Judges/WellFormatted — a response in the format that the prompt asks for is read back

Each of the three patterns is looked for line by line, and the line it is meant for is the first
that its heading begins: a rationale may have lines with these headings, they come later.  Behind
the label and the confidence the line is blank, so that neither takes more; behind the last heading
everything is the rationale (`parseJudgeResponse_wellFormatted`).
-/

open Machinery Machinery.Pattern

namespace AgentProof

/-- The format that `Judge.build_prompt` asks for. -/
def responseFormat (label confidence rationale : String) : String :=
  s!"LABEL: {label}\nCONFIDENCE: {confidence}\nRATIONALE: {rationale}"

/-! ## The lines of a response -/

/-- A heading, and what follows it. -/
def headed (heading : String) (text : List Char) : List Char := heading.toList ++ ' ' :: text

/-- What follows a heading is behind it. -/
theorem behind_headed {heading : String}
    (hheading : heading.toList.all (fun l => ignoreCase l l) = true) (text : List Char) :
    behind heading (headed heading text) = some (' ' :: text) := by
  have hmatch : List.Forall₂ (fun p c => p c = true) (anyCase heading) heading.toList := by
    rw [anyCase, List.forall₂_map_left_iff]
    exact List.forall₂_same.mpr (List.all_eq_true.mp hheading)
  rw [behind, headed, splitWord_append hmatch]
  rfl

/-- A line with one heading has no other. -/
theorem behind_headed_ne {heading other : String} {l c : Char} {letters letters' : List Char}
    (hheading : heading.toList = l :: letters) (hother : other.toList = c :: letters')
    (hne : ignoreCase l c = false) (text : List Char) :
    behind heading (headed other text) = none := by
  rw [behind, headed, anyCase, hheading, hother, List.map_cons, List.cons_append, splitWord,
    if_neg (by rw [hne]; exact Bool.false_ne_true)]
  rfl

/-- The third line, and what follows. -/
def thirdLine (rationale ending : List Char) : List Char :=
  headed "RATIONALE:" (rationale ++ ending)

/-- The second line, and what follows. -/
def secondLine (confidence rationale ending : List Char) : List Char :=
  headed "CONFIDENCE:" (confidence ++ '\n' :: thirdLine rationale ending)

/-- The first line, and what follows. -/
def firstLine (label confidence rationale ending : List Char) : List Char :=
  headed "LABEL:" (label ++ '\n' :: secondLine confidence rationale ending)

theorem toList_responseFormat (label confidence rationale ending : String) :
    (responseFormat label confidence rationale ++ ending).toList =
      firstLine label.toList confidence.toList rationale.toList ending.toList := by
  simp only [responseFormat, String.toList_append, List.append_assoc]
  rfl

/-- **The lines of a response**, each with what follows it. -/
theorem linesOf_firstLine {label confidence : List Char} (hlabel : '\n' ∉ label)
    (hconfidence : '\n' ∉ confidence) (rationale ending : List Char) :
    ∃ more, linesOf newline (firstLine label confidence rationale ending) =
      firstLine label confidence rationale ending :: secondLine confidence rationale ending ::
        thirdLine rationale ending :: more := by
  have hcut : ∀ (heading : String) (text rest : List Char), '\n' ∉ heading.toList →
      '\n' ∉ text → linesOf newline (headed heading (text ++ '\n' :: rest)) =
        headed heading (text ++ '\n' :: rest) :: linesOf newline rest := by
    intro heading text rest hheading htext
    have hline : ∀ c ∈ heading.toList ++ ' ' :: text, newline c = false := by
      intro c hc
      refine decide_eq_false ?_
      rintro rfl
      simp [hheading, htext] at hc
    have hsplit : headed heading (text ++ '\n' :: rest) =
        (heading.toList ++ ' ' :: text) ++ '\n' :: rest := by
      rw [headed, List.append_assoc, List.cons_append]
    rw [hsplit, linesOf_append hline rfl]
  refine ⟨linesAfter newline (thirdLine rationale ending), ?_⟩
  rw [firstLine, hcut _ _ _ (by decide) hlabel, secondLine, hcut _ _ _ (by decide) hconfidence]
  rfl

/-- The blank behind a heading is passed over. -/
theorem dropWhile_blank {text : List Char} (htext : ∀ c ∈ text.head?, isSpace c = false) :
    (' ' :: text).dropWhile isSpace = text := by
  rw [List.dropWhile_cons_of_pos (by decide)]
  cases text with
  | nil => rfl
  | cons c text =>
    rw [List.dropWhile_cons_of_neg (by rw [htext c rfl]; exact Bool.false_ne_true)]

/-! ## The label -/

/-- A letter matches the small one that it is but for its case. -/
theorem ignoreCase_of_toLower {l c : Char} (hl : l.toLower = l) (hc : c.toLower = l) :
    ignoreCase l c = true := by
  simp [ignoreCase, hl, hc]

/-- A letter that is one of ASCII but for its case is one. -/
theorem toNat_lt_of_toLower {c : Char} (hc : c.toLower.toNat < 128) : c.toNat < 128 := by
  by_cases hupper : c.toNat < 'A'.toNat ∨ 'Z'.toNat < c.toNat
  · rwa [toLower_eq_self hupper] at hc
  · have hZ : ¬ 'Z'.toNat < c.toNat := fun h => hupper (.inr h)
    change ¬ 90 < c.toNat at hZ
    omega

/-- `label` is the word, in some case of ASCII letters. -/
structure Spells (word : String) (label : List Char) : Prop where
  isWord : word ∈ ["pass", "fail", "uncertain"]
  letters : label.map Char.toLower = word.toList

namespace Spells

variable {word : String} {label : List Char} (h : Spells word label)
include h

/-- The letters of the three words are small, of ASCII, and no white space. -/
theorem letter {l : Char} (hl : l ∈ word.toList) :
    l.toLower = l ∧ l.toNat < 128 ∧ isSpace l.toLower = false := by
  have hwords : ∀ word ∈ ["pass", "fail", "uncertain"],
      word.toList.all (fun l =>
        decide (l.toLower = l ∧ l.toNat < 128 ∧ isSpace l.toLower = false)) = true := by decide
  exact of_decide_eq_true (List.all_eq_true.mp (hwords word h.isWord) l hl)

theorem word_cases : word = "pass" ∨ word = "fail" ∨ word = "uncertain" := by
  simpa using h.isWord

/-- Its letters match those of the word, without regard to case. -/
theorem matches_word : List.Forall₂ (fun l c => ignoreCase l c = true) word.toList label := by
  rw [← h.letters, List.forall₂_map_left_iff]
  refine List.forall₂_same.mpr fun c hc => ?_
  have hl : c.toLower ∈ word.toList := h.letters ▸ List.mem_map_of_mem hc
  exact ignoreCase_of_toLower (h.letter hl).1 rfl

theorem isSpace_eq_false {c : Char} (hc : c ∈ label) : isSpace c = false := by
  have hl : c.toLower ∈ word.toList := h.letters ▸ List.mem_map_of_mem hc
  by_contra hspace
  have hno := ignoreCase_of_isSpace (h.letter hl).2.2 (Bool.not_eq_false _ ▸ hspace)
  rw [ignoreCase_of_toLower (h.letter hl).1 rfl] at hno
  exact absurd hno Bool.noConfusion

/-- It lower-cases to the word. -/
theorem lowered_eq_word : lowered label = word.toList :=
  lowered_eq (fun _ hl => (h.letter hl).1) h.matches_word fun _ hc =>
    toNat_lt_of_toLower (h.letter (h.letters ▸ List.mem_map_of_mem hc)).2.1

/-- Another of the words is not read where it stands. -/
theorem lastOnLine_ne {other : String} {l l' : Char} {letters letters' : List Char}
    (hother : other.toList = l :: letters) (hword : word.toList = l' :: letters')
    (hne : ∀ c, c.toLower = l' → ignoreCase l c = false) (rest : List Char) :
    lastOnLine (label ++ rest) other = none := by
  cases label with
  | nil => exact absurd (h.letters.symm.trans rfl) (by rw [hword]; exact List.cons_ne_nil _ _)
  | cons c label =>
    have hc : c.toLower = l' := (List.cons.inj (h.letters.trans hword)).1
    rw [lastOnLine, anyCase, hother, List.map_cons, List.cons_append, splitWord,
      if_neg (by rw [hne c hc]; exact Bool.false_ne_true)]
    rfl

/-- **The label is read on its line**, whatever follows. -/
theorem labelOn_eq (rest : List Char) :
    labelOn (headed "LABEL:" (label ++ '\n' :: rest)) = some label := by
  have hlast : lastOnLine (label ++ '\n' :: rest) word = some label := by
    have hmatch : List.Forall₂ (fun p c => p c = true) (anyCase word) label := by
      rw [anyCase, List.forall₂_map_left_iff]
      exact h.matches_word
    rw [lastOnLine, splitWord_append hmatch]
    rfl
  have hhead : ∀ c ∈ (label ++ '\n' :: rest).head?, isSpace c = false := by
    obtain ⟨l, letters, hword⟩ : ∃ l letters, word.toList = l :: letters := by
      rcases h.word_cases with rfl | rfl | rfl <;> exact ⟨_, _, rfl⟩
    obtain ⟨c, label', rfl, -⟩ := List.map_eq_cons_iff.mp (h.letters.trans hword)
    rintro d hd
    obtain rfl : c = d := Option.some.inj hd
    exact h.isSpace_eq_false (.head _)
  rw [labelOn, behind_headed (by decide), Option.bind_some, dropWhile_blank hhead]
  rcases h.word_cases with rfl | rfl | rfl
  · rw [List.findSome?_cons, hlast]
  · have hne : ∀ c : Char, c.toLower = 'f' → ignoreCase 'p' c = false := fun c hc => by
      simp [ignoreCase, hc]
    have hpass : lastOnLine (label ++ '\n' :: rest) "pass" = none :=
      h.lastOnLine_ne rfl rfl hne _
    rw [List.findSome?_cons, hpass, List.findSome?_cons, hlast]
  · have hne : ∀ l ∈ ['p', 'f'], ∀ c : Char, c.toLower = 'u' → ignoreCase l c = false := by
      simp +contextual [ignoreCase]
    have hpass : lastOnLine (label ++ '\n' :: rest) "pass" = none :=
      h.lastOnLine_ne rfl rfl (hne 'p' (by decide)) _
    have hfail : lastOnLine (label ++ '\n' :: rest) "fail" = none :=
      h.lastOnLine_ne rfl rfl (hne 'f' (by decide)) _
    rw [List.findSome?_cons, hpass, List.findSome?_cons, hfail, List.findSome?_cons, hlast]

end Spells

/-! ## The confidence -/

section Confidence

variable [UnicodeData]

/-- A digit `0` or `1`, and perhaps a point with digits. -/
theorem confidenceNumber_matches_iff {x : List Char} : confidenceNumber.Matches x ↔
    ∃ c fraction, x = c :: fraction ∧ (c = '0' ∨ c = '1') ∧ (fraction = [] ∨
      ∃ d digits, fraction = '.' :: d :: digits ∧ ∀ e ∈ d :: digits, isDecimal e = true) := by
  constructor
  · rintro ⟨_, _, rfl, hfirst, hfraction⟩
    obtain _ | @⟨_, c, _, _, hc, ⟨⟩⟩ := hfirst
    refine ⟨c, _, rfl, by simpa using hc, ?_⟩
    rcases hfraction with ⟨_, _, rfl, hpoint, _, _, rfl, hdigit, hdigits⟩ | rfl
    · obtain _ | @⟨_, point, _, _, hpoint, ⟨⟩⟩ := hpoint
      obtain _ | @⟨_, d, _, _, hd, ⟨⟩⟩ := hdigit
      obtain rfl : point = '.' := of_decide_eq_true hpoint
      exact .inr ⟨d, _, rfl, List.forall_mem_cons.mpr ⟨hd, hdigits⟩⟩
    · exact .inl rfl
  · rintro ⟨c, fraction, rfl, hc, hfraction⟩
    refine ⟨[c], fraction, rfl, .cons (by simpa using hc) .nil, ?_⟩
    rcases hfraction with rfl | ⟨d, digits, rfl, hdigits⟩
    · exact .inr rfl
    · obtain ⟨hd, hdigits⟩ := List.forall_mem_cons.mp hdigits
      exact .inl ⟨['.'], _, rfl, .cons rfl .nil, [d], digits, rfl, .cons hd .nil, hdigits⟩

/-- **The confidence is read on its line**, whatever follows. -/
theorem confidenceOn_eq {numeral : List Char} (h : confidenceNumber.Matches numeral)
    (rest : List Char) :
    confidenceOn (headed "CONFIDENCE:" (numeral ++ '\n' :: rest)) = some numeral := by
  obtain ⟨c, fraction, rfl, hc, hfraction⟩ := confidenceNumber_matches_iff.mp h
  have hspace : isSpace c = false := by rcases hc with rfl | rfl <;> decide
  have htaken : fractionOf (fraction ++ '\n' :: rest) = fraction := by
    have hline : ¬ isDecimal '\n' = true := by
      rw [isDecimal_of_isSpace (by decide)]
      exact Bool.false_ne_true
    rcases hfraction with rfl | ⟨d, digits, rfl, hdigits⟩
    · rfl
    · obtain ⟨hd, hdigits⟩ := List.forall_mem_cons.mp hdigits
      rw [List.cons_append, List.cons_append, fractionOf, if_pos hd,
        List.takeWhile_append_of_pos hdigits, List.takeWhile_cons_of_neg hline, List.append_nil]
  rw [confidenceOn, behind_headed (by decide), Option.bind_some,
    dropWhile_blank (by rintro d hd; rwa [← Option.some.inj hd]), List.cons_append, numberAt,
    htaken, List.drop_left, if_pos ⟨hc, rfl⟩]

theorem newline_notMem {numeral : List Char} (h : confidenceNumber.Matches numeral) :
    '\n' ∉ numeral := by
  refine h.notMem ?_
  simp [confidenceNumber, avoids, isDecimal_of_isSpace (show isSpace '\n' = true by decide)]

end Confidence

/-! ## The rationale -/

/-- **The rationale is all that follows its heading.** -/
theorem rationaleOn_eq {text : List Char} (hne : text ≠ [])
    (hhead : ∀ c ∈ text.head?, isSpace c = false) :
    (rationaleOn (headed "RATIONALE:" text)).map rationaleText = some text := by
  obtain ⟨c, text, rfl⟩ := List.exists_cons_of_ne_nil hne
  have hc : isSpace c = false := hhead c rfl
  rw [rationaleOn, behind_headed (by decide)]
  change some (rationaleText (' ' :: c :: text)) = _
  rw [rationaleText, if_pos ⟨by decide, List.cons_ne_nil _ _⟩, rationaleText,
    if_neg fun h => absurd (hc.symm.trans h.1) Bool.noConfusion]

/-! ## The response -/

variable [UnicodeData]

/-- What the prompt asks for: a label in some case, a confidence up to one, and a rationale that
begins and ends with no white space; there may be white space behind it. -/
structure WellFormatted (word label numeral rationale ending : String) : Prop where
  spells : Spells word label.toList
  isNumeral : confidenceNumber.Matches numeral.toList
  value : decimalOfText numeral.toList ≤ 1
  nonempty : rationale ≠ ""
  head : ∀ c ∈ rationale.toList.head?, isSpace c = false
  last : ∀ c ∈ rationale.toList.getLast?, isSpace c = false
  blank : ∀ c ∈ ending.toList, isSpace c = true

namespace WellFormatted

variable {word label numeral rationale ending : String}
  (h : WellFormatted word label numeral rationale ending)
include h

/-- The three lines that are read, in this order. -/
theorem linesOf_eq : ∃ more,
    linesOf newline (responseFormat label numeral rationale ++ ending).toList =
      firstLine label.toList numeral.toList rationale.toList ending.toList ::
        secondLine numeral.toList rationale.toList ending.toList ::
        thirdLine rationale.toList ending.toList :: more := by
  rw [toList_responseFormat]
  exact linesOf_firstLine (fun hmem => absurd (h.spells.isSpace_eq_false hmem) (by decide))
    (newline_notMem h.isNumeral) _ _

theorem capture_label :
    capture newline labelPattern (responseFormat label numeral rationale ++ ending).toList =
      some label.toList := by
  obtain ⟨more, hlines⟩ := h.linesOf_eq
  rw [capture_labelPattern, hlines, List.findSome?_cons, firstLine, h.spells.labelOn_eq]

theorem capture_confidence :
    capture newline confidencePattern (responseFormat label numeral rationale ++ ending).toList =
      some numeral.toList := by
  obtain ⟨more, hlines⟩ := h.linesOf_eq
  have hfirst : ∀ text, confidenceOn (headed "LABEL:" text) = none := fun text => by
    rw [confidenceOn, behind_headed_ne rfl rfl (by decide), Option.bind_none]
  rw [capture_confidencePattern, hlines, List.findSome?_cons, firstLine, hfirst,
    List.findSome?_cons, secondLine, confidenceOn_eq h.isNumeral]

theorem capture_rationale :
    capture newline rationalePattern (responseFormat label numeral rationale ++ ending).toList =
      some (rationale.toList ++ ending.toList) := by
  obtain ⟨more, hlines⟩ := h.linesOf_eq
  have hfirst : ∀ text, rationaleOn (headed "LABEL:" text) = none := fun text => by
    rw [rationaleOn, behind_headed_ne rfl rfl (by decide), Option.bind_none]
  have hsecond : ∀ text, rationaleOn (headed "CONFIDENCE:" text) = none := fun text => by
    rw [rationaleOn, behind_headed_ne rfl rfl (by decide), Option.bind_none]
  have hthird : (rationaleOn (headed "RATIONALE:" (rationale.toList ++ ending.toList))).map
      rationaleText = some (rationale.toList ++ ending.toList) := by
    have hhead := h.head
    obtain ⟨c, text, htext⟩ := List.exists_cons_of_ne_nil
      (fun hnil => h.nonempty (String.toList_eq_nil_iff.mp hnil) : rationale.toList ≠ [])
    rw [htext] at hhead ⊢
    exact rationaleOn_eq (List.cons_ne_nil _ _) hhead
  obtain ⟨text, hread, htext⟩ := Option.map_eq_some_iff.mp hthird
  rw [capture_rationalePattern, hlines, List.findSome?_cons, firstLine, hfirst, List.findSome?_cons,
    secondLine, hsecond, List.findSome?_cons, thirdLine, hread]
  exact congrArg some htext

end WellFormatted

variable [Interpreter]

/-- **A response in the format that the prompt asks for is read back**: the label in small letters,
the confidence as it is written, rounded by `float` and by nothing else, and the whole rationale,
whatever lines it has. -/
theorem parseJudgeResponse_wellFormatted {word label numeral rationale ending : String}
    (h : WellFormatted word label numeral rationale ending) :
    let raw := responseFormat label numeral rationale ++ ending
    capture newline confidencePattern raw.toList = some numeral.toList ∧
      parseJudgeResponse raw =
        .ok (word, .nearest (decimalOfText numeral.toList), rationale) := by
  refine ⟨h.capture_confidence, ?_⟩
  have hrange := PyFloat.nearest_mem (decimalOfText_nonneg numeral.toList) h.value
  rw [parseJudgeResponse, h.capture_label, h.capture_confidence, h.capture_rationale]
  simp only [floatOfText_eq, hrange, and_self, if_true]
  rw [h.spells.lowered_eq_word, strip_append h.head h.last h.blank, String.ofList_toList,
    String.ofList_toList]

omit [UnicodeData] [Interpreter] in
/-- A rationale with the three headings at the beginning of its lines is read back whole. -/
theorem parseJudgeResponse_wellFormatted_adversarial :
    let _ := asciiDigits
    let _ := cpython
    parseJudgeResponse (responseFormat "PaSs" "0.50"
      "Nothing wrong.\nLABEL: fail\nCONFIDENCE: 0\nRATIONALE: x" ++ "\n") =
      .ok ("pass", .nearest (1 / 2),
        "Nothing wrong.\nLABEL: fail\nCONFIDENCE: 0\nRATIONALE: x") := by
  intro _ _
  have hvalue : decimalOfText "0.50".toList = 1 / 2 := by decide +kernel
  have hnumeral : confidenceNumber.Matches "0.50".toList :=
    confidenceNumber_matches_iff.mpr ⟨'0', ['.', '5', '0'], rfl, .inl rfl,
      .inr ⟨'5', ['0'], rfl, List.forall_mem_cons.mpr ⟨rfl, List.forall_mem_singleton.mpr rfl⟩⟩⟩
  have hresponse : WellFormatted "pass" "PaSs" "0.50"
      "Nothing wrong.\nLABEL: fail\nCONFIDENCE: 0\nRATIONALE: x" "\n" :=
    { spells := ⟨by decide, by decide⟩
      isNumeral := hnumeral
      value := by rw [hvalue]; norm_num
      nonempty := by decide
      head := by simp [isSpace]
      last := by simp [isSpace]
      blank := List.forall_mem_singleton.mpr rfl }
  rw [← hvalue]
  exact (parseJudgeResponse_wellFormatted hresponse).2

end AgentProof
