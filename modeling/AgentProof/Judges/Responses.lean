import AgentProof.Judges.Orchestration
import AgentProof.Python.Text
import Mathlib.Tactic.NormNum

/-!
# Judges/Responses — what a judge's response is parsed to, and when the platform stores it

`parse_judge_response` looks for three headings in the model's text.  The platform takes a verdict
with one of three labels, a confidence in `[0, 1]` and a rationale that is not empty.

**The parser lets two kinds of response through that the platform refuses**
(`parseJudgeResponse_storable_iff`): a label written with one of the letters `ſ`, `ı`, `İ`, which
match `s` and `i` without regard to case but do not lower-case to them; and a rationale of white
space, which matches `(.+)` and is stripped afterwards.
-/

open Machinery Machinery.Pattern Machinery.Raising

namespace AgentProof

/-! ## The parser -/

/-- Where a line ends. -/
def newline (c : Char) : Bool := c = '\n'

/-- The letters of a text, in either case. -/
def anyCase (text : String) : List (Char → Bool) := text.toList.map ignoreCase

/-- `pass|fail|uncertain` -/
def labelWords : Pattern Char :=
  .alt (.word (anyCase "pass")) (.alt (.word (anyCase "fail")) (.word (anyCase "uncertain")))

/-- `\s*$` -/
def blankEnd : Pattern Char := .seq (.many isSpace) .lineEnd

/-- `_LABEL_PATTERN` -/
def labelPattern : Pattern Char :=
  .seq .lineStart <| .seq (.word (anyCase "LABEL:")) <| .seq (.many isSpace) <|
    .seq (.group labelWords) blankEnd

/-- `_RATIONALE_PATTERN` -/
def rationalePattern : Pattern Char :=
  .seq .lineStart <| .seq (.word (anyCase "RATIONALE:")) <| .seq (.many isSpace) <|
    .group (.seq (.word [fun _ => true]) (.many fun _ => true))

/-- `[01](?:\.\d+)?` -/
def confidenceNumber [UnicodeData] : Pattern Char :=
  .seq (.word [fun c => c = '0' || c = '1']) <|
    .opt <| .seq (.word [fun c => c = '.']) <| .seq (.word [isDecimal]) (.many isDecimal)

/-- `_CONFIDENCE_PATTERN` -/
def confidencePattern [UnicodeData] : Pattern Char :=
  .seq .lineStart <| .seq (.word (anyCase "CONFIDENCE:")) <| .seq (.many isSpace) <|
    .seq (.group confidenceNumber) blankEnd

/-- `parse_judge_response`.  Every match of the three patterns captures its group. -/
def parseJudgeResponse [UnicodeData] [Interpreter] (raw : String) :
    Except PyError (String × PyFloat × String) :=
  match capture newline labelPattern raw.toList, capture newline confidencePattern raw.toList,
    capture newline rationalePattern raw.toList with
  | some label, some number, some text =>
    let confidence := floatOfText number
    if 0 ≤ confidence.value ∧ confidence.value ≤ 1 then
      .ok (String.ofList (lowered label), confidence, String.ofList (strip text))
    else .error (.judgeResponseError
      s!"Confidence out of range [0, 1]: {Interpreter.reprFloat confidence}")
  | _, _, _ => .error (.judgeResponseError
      ("Could not parse LABEL/CONFIDENCE/RATIONALE from judge response: " ++
        Interpreter.reprStr raw))

/-! ## What the platform takes -/

/-- `JudgeLabel(text)` -/
def JudgeLabel.ofText (text : String) : Except PyError JudgeLabel :=
  if text = "pass" then .ok .pass
  else if text = "fail" then .ok .fail
  else if text = "uncertain" then .ok .uncertain
  else .error (.validationError "label")

/-- The `JudgeVerdictCreate` that `process_job` builds of a parsed response. -/
def verdictCreate (judgeName rubricVersion : String) (response : String × PyFloat × String) :
    Except PyError JudgeVerdictCreate := do
  JudgeVerdictCreate.validate judgeName rubricVersion (← JudgeLabel.ofText response.1)
    response.2.1 response.2.2

/-- A parsed response is one the platform stores. -/
structure Storable (response : String × PyFloat × String) : Prop where
  label : response.1 ∈ ["pass", "fail", "uncertain"]
  confidence : 0 ≤ response.2.1.value ∧ response.2.1.value ≤ 1
  rationale : response.2.2 ≠ ""

theorem JudgeLabel.ofText_isOk_iff (text : String) :
    (∃ label, JudgeLabel.ofText text = .ok label) ↔ text ∈ ["pass", "fail", "uncertain"] := by
  unfold JudgeLabel.ofText
  split_ifs <;> simp_all

/-- **The platform's contract takes exactly these**, whatever judge and rubric gave the response. -/
theorem verdictCreate_isOk_iff {judgeName rubricVersion : String}
    (hname : 1 ≤ judgeName.length ∧ judgeName.length ≤ 120)
    (hversion : 1 ≤ rubricVersion.length ∧ rubricVersion.length ≤ 40)
    (response : String × PyFloat × String) :
    (∃ create, verdictCreate judgeName rubricVersion response = .ok create) ↔
      Storable response := by
  have hlabel := JudgeLabel.ofText_isOk_iff response.1
  constructor
  · rintro ⟨create, hcreate⟩
    obtain ⟨label, hread, hvalid⟩ := except_bind_eq_ok.mp hcreate
    unfold JudgeVerdictCreate.validate at hvalid
    split_ifs at hvalid with hconfidence hrationale
    exact ⟨hlabel.mp ⟨label, hread⟩, hconfidence, hrationale⟩
  · intro h
    obtain ⟨label, hread⟩ := hlabel.mpr h.label
    refine ⟨⟨judgeName, rubricVersion, label, response.2.1, response.2.2, hname, hversion,
      h.confidence, h.rationale⟩, except_bind_eq_ok.mpr ⟨label, hread, ?_⟩⟩
    unfold JudgeVerdictCreate.validate
    rw [dif_pos hname, dif_pos hversion, dif_pos h.confidence, dif_pos h.rationale]

/-! ## What the parser reads, line by line -/

/-- What follows a heading at the beginning of a line. -/
def behind (heading : String) (line : List Char) : Option (List Char) :=
  (splitWord (anyCase heading) line).map Prod.snd

/-- The rest of the line is blank. -/
abbrev restBlank (rest : List Char) : Bool := restOfLine newline isSpace rest

/-- The letters of a word, when the rest of the line is blank behind them. -/
def lastOnLine (rest : List Char) (word : String) : Option (List Char) :=
  (splitWord (anyCase word) rest).bind fun x => if restBlank x.2 then some x.1 else none

/-- The label that follows `LABEL:`, on its line or after blank ones. -/
def labelOn (line : List Char) : Option (List Char) :=
  (behind "LABEL:" line).bind fun rest =>
    ["pass", "fail", "uncertain"].findSome? (lastOnLine (rest.dropWhile isSpace))

/-- A point with the digits behind it, if there are any. -/
def fractionOf [UnicodeData] (rest : List Char) : List Char :=
  match rest with
  | '.' :: d :: rest => if isDecimal d then '.' :: d :: rest.takeWhile isDecimal else []
  | _ => []

/-- A number up to `2`, when the rest of the line is blank behind it. -/
def numberAt [UnicodeData] : List Char → Option (List Char)
  | [] => none
  | c :: rest =>
    if (c = '0' ∨ c = '1') ∧ restBlank (rest.drop (fractionOf rest).length) then
      some (c :: fractionOf rest)
    else none

/-- The number that follows `CONFIDENCE:`, on its line or after blank ones. -/
def confidenceOn [UnicodeData] (line : List Char) : Option (List Char) :=
  (behind "CONFIDENCE:" line).bind fun rest => numberAt (rest.dropWhile isSpace)

/-- All of a text, if there is any. -/
def whole : List Char → Option (List Char)
  | [] => none
  | c :: rest => some (c :: rest)

/-- What follows `RATIONALE:`, if anything does. -/
def rationaleOn (line : List Char) : Option (List Char) := (behind "RATIONALE:" line).bind whole

/-- The response says what it is asked for in a form that the platform stores: if it has a label, a
confidence in `[0, 1]` and a rationale, the label is of ASCII letters and the rationale is not
blank. -/
def WellAnswered [UnicodeData] (raw : String) : Prop :=
  let lines := linesOf newline raw.toList
  ∀ label ∈ lines.findSome? labelOn, ∀ number ∈ lines.findSome? confidenceOn,
    ∀ rationale ∈ lines.findSome? rationaleOn,
      (0 ≤ (floatOfText number).value ∧ (floatOfText number).value ≤ 1) →
        (∀ c ∈ label, c.toNat < 128) ∧ ∃ c ∈ rationale, isSpace c = false

/-! ## The patterns read these -/

theorem blankEnd_fits (start : Bool) (rest : List Char) :
    found newline blankEnd ⟨start, rest⟩ ≠ [] ↔ restBlank rest = true :=
  found_many_lineEnd_ne_nil_iff start rest

/-- No word of letters begins with white space. -/
theorem splitWord_of_isSpace {word : String} {l : Char} {letters : List Char}
    (hword : word.toList = l :: letters) (hl : isSpace l.toLower = false) {c : Char}
    (hc : isSpace c = true) (rest : List Char) : splitWord (anyCase word) (c :: rest) = none := by
  rw [anyCase, hword, List.map_cons, splitWord, if_neg]
  rw [ignoreCase_of_isSpace hl hc]
  exact Bool.false_ne_true

theorem lastOnLine_of_isSpace {word : String} {l : Char} {letters : List Char}
    (hword : word.toList = l :: letters) (hl : isSpace l.toLower = false) {c : Char}
    (hc : isSpace c = true) (rest : List Char) : lastOnLine (c :: rest) word = none := by
  rw [lastOnLine, splitWord_of_isSpace hword hl hc, Option.bind_none]

theorem reads_label :
    Reads newline (.seq (.group labelWords) blankEnd) fun rest =>
      ["pass", "fail", "uncertain"].findSome? (lastOnLine rest) := by
  have hsplits : Splits newline labelWords fun rest =>
      (splitWord (anyCase "pass") rest).toList ++ ((splitWord (anyCase "fail") rest).toList ++
        (splitWord (anyCase "uncertain") rest).toList) :=
    (Splits.word _).alt ((Splits.word _).alt (Splits.word _))
  have htoList : ∀ (o : Option (List Char × List Char))
      (f : List Char × List Char → Option (List Char)), o.toList.findSome? f = o.bind f :=
    fun o f => by cases o <;> simp
  intro start rest
  rw [Reads.group hsplits rfl blankEnd_fits start rest]
  simp only [List.findSome?_append, htoList, List.findSome?_cons, List.findSome?_nil]
  change ((lastOnLine rest "pass").or ((lastOnLine rest "fail").or
    (lastOnLine rest "uncertain"))).map some = _
  cases lastOnLine rest "pass" <;> cases lastOnLine rest "fail" <;>
    cases lastOnLine rest "uncertain" <;> rfl

theorem capture_labelPattern (text : List Char) :
    capture newline labelPattern text = (linesOf newline text).findSome? labelOn := by
  rw [labelPattern, capture_lineStart ((reads_label.many isSpace).word _)]
  refine congrArg (List.findSome? · _) (funext fun line => ?_)
  rw [labelOn, behind, Option.bind_map]
  refine congrArg (Option.bind _) (funext fun x => skipping_eq (fun c rest hc => ?_) x.2)
  have hpass : lastOnLine (c :: rest) "pass" = none := lastOnLine_of_isSpace rfl rfl hc rest
  have hfail : lastOnLine (c :: rest) "fail" = none := lastOnLine_of_isSpace rfl rfl hc rest
  have huncertain : lastOnLine (c :: rest) "uncertain" = none :=
    lastOnLine_of_isSpace rfl rfl hc rest
  rw [List.findSome?_cons, hpass, List.findSome?_cons, hfail, List.findSome?_cons, huncertain]
  rfl

/-- **A label is stored when its letters are ASCII.** -/
theorem lowered_label_mem_iff {line label : List Char} (h : labelOn line = some label) :
    String.ofList (lowered label) ∈ ["pass", "fail", "uncertain"] ↔ ∀ c ∈ label, c.toNat < 128 := by
  obtain ⟨rest, -, hrest⟩ := Option.bind_eq_some_iff.mp h
  obtain ⟨word, hword, hlast⟩ := List.exists_of_findSome?_eq_some hrest
  obtain ⟨x, hx, hblank⟩ := Option.bind_eq_some_iff.mp hlast
  obtain rfl : x.1 = label := by
    split_ifs at hblank
    exact Option.some.inj hblank
  have hletters : List.Forall₂ (fun l c => ignoreCase l c = true) word.toList x.1 :=
    List.forall₂_map_left_iff.mp (splitWord_eq_some hx)
  have hlow : ∀ word ∈ ["pass", "fail", "uncertain"], ∀ l ∈ word.toList,
      l.toLower = l ∧ l.toNat < 128 ∧ l ≠ 'k' := by simp
  constructor
  · intro hmem
    have hkelvin : '\u212a' ∉ x.1 := kelvin_notMem (hlow word hword) hletters
    refine (lowered_ascii_iff hkelvin).mp fun c hc => ?_
    rw [← String.toList_ofList (l := lowered x.1)] at hc
    exact (hlow _ hmem c hc).2.1
  · intro hascii
    rw [lowered_eq (fun l hl => (hlow word hword l hl).1) hletters hascii, String.ofList_toList]
    exact hword

/-! ## The confidence -/

section Confidence

variable [UnicodeData]

theorem restBlank_cons_of_isDecimal {c : Char} (hc : isDecimal c = true) (rest : List Char) :
    restBlank (c :: rest) = false := by
  have hspace : isSpace c = false := by
    cases h : isSpace c
    · rfl
    · rw [isDecimal_of_isSpace h] at hc
      exact absurd hc Bool.false_ne_true
  have hline : newline c = false := by
    cases h : newline c
    · rfl
    · obtain rfl : c = '\n' := of_decide_eq_true h
      exact absurd hspace (by decide)
  simp [restBlank, restOfLine, hspace, hline]

/-- The ways to match a fraction: from all its digits down to one. -/
def fractionSplits : List Char → List (List Char × List Char)
  | '.' :: d :: rest =>
    if isDecimal d then (splitMany isDecimal rest).map (Prod.map ('.' :: d :: ·) id) else []
  | _ => []

theorem splits_fraction :
    Splits newline (.seq (.word [fun c => c = '.']) (.seq (.word [isDecimal]) (.many isDecimal)))
      fractionSplits := by
  intro start rest
  rw [((Splits.word _).seq ((Splits.word _).seq (Splits.many _))) start rest]
  rcases rest with _ | ⟨c, _ | ⟨d, rest⟩⟩
  · rfl
  · by_cases hc : c = '.' <;> simp [splitWord, fractionSplits, hc]
  · by_cases hc : c = '.'
    · subst hc
      by_cases hd : isDecimal d = true
      · simp [splitWord, fractionSplits, hd, Prod.map]
      · simp [splitWord, fractionSplits, hd]
    · simp [splitWord, fractionSplits, hc]

/-- Behind a number the line is blank only where all the digits of the fraction are taken. -/
theorem findSome?_fraction (c : Char) (rest : List Char) :
    ((fractionSplits rest ++ [([], rest)]).findSome? fun x : List Char × List Char =>
        if restBlank x.2 then some (c :: x.1) else none) =
      if restBlank (rest.drop (fractionOf rest).length) then some (c :: fractionOf rest)
      else none := by
  by_cases hfraction : ∃ d tail, rest = '.' :: d :: tail ∧ isDecimal d = true
  · obtain ⟨d, tail, rfl, hd⟩ := hfraction
    have hpoint : restBlank ('.' :: d :: tail) = false := rfl
    have hall : tail.drop (tail.takeWhile isDecimal).length = tail.dropWhile isDecimal := by
      conv_lhs => enter [2]; rw [← List.takeWhile_append_dropWhile (p := isDecimal) (l := tail)]
      exact List.drop_left
    rw [fractionSplits, if_pos hd, fractionOf, if_pos hd, List.findSome?_append,
      List.findSome?_map, findSome?_splitMany]
    · simp [hpoint, hall]
    · intro taken e tail he
      simp [restBlank_cons_of_isDecimal he]
  · have hsplits : fractionSplits rest = [] := by
      unfold fractionSplits
      split
      · exact if_neg fun hd => hfraction ⟨_, _, rfl, hd⟩
      · rfl
    have hnone : fractionOf rest = [] := by
      unfold fractionOf
      split
      · exact if_neg fun hd => hfraction ⟨_, _, rfl, hd⟩
      · rfl
    simp [hsplits, hnone]

theorem reads_confidence :
    Reads newline (.seq (.group confidenceNumber) blankEnd) numberAt := by
  intro start rest
  rw [confidenceNumber,
    Reads.group ((Splits.word _).seq splits_fraction.opt) rfl blankEnd_fits start rest]
  cases rest with
  | nil => rfl
  | cons c rest =>
    by_cases hc : c = '0' ∨ c = '1'
    · have h := findSome?_fraction c rest
      have hfirst : (decide (c = '0') || decide (c = '1')) = true := by simpa using hc
      simp only [splitWord, hfirst, if_true, Option.map_some, Option.toList_some,
        List.flatMap_singleton, numberAt, hc, true_and, ← h, List.findSome?_map]
      rfl
    · simp [splitWord, numberAt, hc]

theorem capture_confidencePattern (text : List Char) :
    capture newline confidencePattern text = (linesOf newline text).findSome? confidenceOn := by
  rw [confidencePattern, capture_lineStart ((reads_confidence.many isSpace).word _)]
  refine congrArg (List.findSome? · _) (funext fun line => ?_)
  rw [confidenceOn, behind, Option.bind_map]
  refine congrArg (Option.bind _) (funext fun x => skipping_eq (fun c rest hc => ?_) x.2)
  have hdigit : ¬ (c = '0' ∨ c = '1') := by
    rintro (rfl | rfl) <;> exact absurd hc (by decide)
  rw [numberAt, if_neg fun h => hdigit h.1]

end Confidence

/-! ## The rationale -/

/-- What `(.+)` captures behind `\s*`: the white space before it is left out, but for a last
character. -/
def rationaleText : List Char → List Char
  | [] => []
  | c :: rest => if isSpace c ∧ rest ≠ [] then rationaleText rest else c :: rest

theorem reads_whole :
    Reads newline (.group (.seq (.word [fun _ => true]) (.many fun _ => true))) whole := by
  intro start rest
  rw [Reads.group_last ((Splits.word _).seq (Splits.many _)) start rest]
  cases rest with
  | nil => rfl
  | cons c rest =>
    have hall : rest.takeWhile (fun _ => true) = rest :=
      List.takeWhile_eq_self_iff.mpr fun _ _ => rfl
    simp [splitWord, head?_splitMany, whole, hall]

theorem skipping_whole (rest : List Char) :
    skipping isSpace whole rest = (whole rest).map rationaleText := by
  induction rest with
  | nil => rfl
  | cons c rest ih =>
    rw [skipping, ih]
    by_cases hc : isSpace c = true
    · cases rest <;> simp [hc, whole, rationaleText]
    · simp [hc, whole, rationaleText]

theorem capture_rationalePattern (text : List Char) :
    capture newline rationalePattern text =
      ((linesOf newline text).findSome? rationaleOn).map rationaleText := by
  rw [rationalePattern, capture_lineStart ((reads_whole.many isSpace).word _), List.map_findSome?]
  refine congrArg (List.findSome? · _) (funext fun line => ?_)
  rw [Function.comp_apply, rationaleOn, behind]
  cases splitWord (anyCase "RATIONALE:") line with
  | none => rfl
  | some x => exact skipping_whole x.2

/-- Leaving white space out leaves a blank rationale blank, and no other. -/
theorem strip_rationaleText_eq_nil_iff (rest : List Char) :
    strip (rationaleText rest) = [] ↔ ∀ c ∈ rest, isSpace c = true := by
  rw [strip_eq_nil_iff]
  induction rest with
  | nil => rfl
  | cons c rest ih =>
    rw [rationaleText]
    split_ifs with hskip
    · rw [ih, List.forall_mem_cons, and_iff_right hskip.1]
    · rfl

/-! ## What the platform stores -/

variable [UnicodeData] [Interpreter]

/-- **A judge's response is stored, once parsed, when it is well answered**: whatever the judge and
the rubric are called. -/
theorem parseJudgeResponse_storable_iff (raw : String) :
    (∀ response, parseJudgeResponse raw = .ok response →
      Storable response ∧ ∀ judgeName rubricVersion : String,
        1 ≤ judgeName.length ∧ judgeName.length ≤ 120 →
        1 ≤ rubricVersion.length ∧ rubricVersion.length ≤ 40 →
        ∃ create, verdictCreate judgeName rubricVersion response = .ok create) ↔
      WellAnswered raw := by
  have hstored : ∀ response, (Storable response ∧ ∀ judgeName rubricVersion : String,
        1 ≤ judgeName.length ∧ judgeName.length ≤ 120 →
        1 ≤ rubricVersion.length ∧ rubricVersion.length ≤ 40 →
        ∃ create, verdictCreate judgeName rubricVersion response = .ok create) ↔
      Storable response := fun response =>
    and_iff_left_of_imp fun h _ _ hname hversion =>
      (verdictCreate_isOk_iff hname hversion response).mpr h
  simp only [hstored, WellAnswered]
  unfold parseJudgeResponse
  rw [capture_labelPattern, capture_confidencePattern, capture_rationalePattern]
  cases hlabel : (linesOf newline raw.toList).findSome? labelOn with
  | none => simp
  | some label =>
    cases hnumber : (linesOf newline raw.toList).findSome? confidenceOn with
    | none => simp
    | some number =>
      cases hrationale : (linesOf newline raw.toList).findSome? rationaleOn with
      | none => simp
      | some rationale =>
        obtain ⟨line, -, hline⟩ := List.exists_of_findSome?_eq_some hlabel
        have hstrip := strip_rationaleText_eq_nil_iff rationale
        have hlower := lowered_label_mem_iff hline
        have hblank : (∃ c ∈ rationale, isSpace c = false) ↔
            strip (rationaleText rationale) ≠ [] := by
          rw [Ne, hstrip]
          simp
        by_cases hrange : 0 ≤ (floatOfText number).value ∧ (floatOfText number).value ≤ 1
        · simp only [Option.map_some, hrange, and_self, if_true, Except.ok.injEq, forall_eq',
            Option.mem_some_iff, forall_const, hblank, ← hlower]
          exact ⟨fun h => ⟨h.label, fun hnil => h.rationale (congrArg String.ofList hnil)⟩,
            fun h => ⟨h.1, hrange, fun hempty => h.2 (String.ofList_injective hempty)⟩⟩
        · refine iff_of_true (fun response h => ?_) ?_
          · simp only [Option.map_some, hrange, if_false, reduceCtorEq] at h
          · rintro _ ⟨⟩ _ ⟨⟩ _ ⟨⟩ h
            exact absurd h hrange

omit [UnicodeData] [Interpreter] in
/-- A response with a heading and nothing behind it but a blank is parsed to a rationale that the
platform refuses. -/
theorem not_parseJudgeResponse_storable :
    let _ := asciiDigits
    let _ := cpython
    ¬ ∀ raw response, parseJudgeResponse raw = .ok response → Storable response := by
  intro _ _ h
  have hparsed : parseJudgeResponse "LABEL: pass\nCONFIDENCE: 1\nRATIONALE: " =
      .ok ("pass", .fin 1, "") := by decide +kernel
  exact (h _ _ hparsed).rationale rfl

end AgentProof
