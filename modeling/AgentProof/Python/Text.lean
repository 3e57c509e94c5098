import AgentProof.Python.Json
import AgentProof.Machinery.Backtracking
import Mathlib.Data.List.DropRight
import Mathlib.Data.List.Infix

/-!
# Python/Text — the characters of a text, as `re`, `str` and `float` see them

White space, letters without regard to case, and the float a decimal text denotes.  Which characters
are decimal digits is the Unicode database's to say.
-/

open Machinery

namespace AgentProof

/-! ## White space -/

/-- `c.isspace()`, which is `\s` too -/
def isSpace (c : Char) : Bool :=
  [(0x09, 0x0d), (0x1c, 0x20), (0x85, 0x85), (0xa0, 0xa0), (0x1680, 0x1680), (0x2000, 0x200a),
    (0x2028, 0x2029), (0x202f, 0x202f), (0x205f, 0x205f), (0x3000, 0x3000)].any
      fun range => range.1 ≤ c.toNat && c.toNat ≤ range.2

/-- `text.strip()` -/
def strip (text : List Char) : List Char := (text.dropWhile isSpace).rdropWhile isSpace

/-- Only white space strips to nothing. -/
theorem strip_eq_nil_iff {text : List Char} :
    strip text = [] ↔ ∀ c ∈ text, isSpace c = true := by
  rw [strip, List.rdropWhile_eq_nil_iff, ← List.dropWhile_eq_nil_iff, List.dropWhile_idempotent,
    List.dropWhile_eq_nil_iff]

/-- **A text that begins and ends with no white space** is what is left of it, with white space
behind. -/
theorem strip_append {text blank : List Char} (hhead : ∀ c ∈ text.head?, isSpace c = false)
    (hlast : ∀ c ∈ text.getLast?, isSpace c = false) (hblank : ∀ c ∈ blank, isSpace c = true) :
    strip (text ++ blank) = text := by
  have hright : (text ++ blank).rdropWhile isSpace = text := by
    induction blank using List.reverseRecOn with
    | nil =>
      rw [List.append_nil, List.rdropWhile_eq_self_iff]
      intro hne
      rw [hlast _ (List.getLast?_eq_some_getLast hne)]
      exact Bool.false_ne_true
    | append_singleton blank c ih =>
      rw [← List.append_assoc, List.rdropWhile_concat_pos _ _ _ (hblank c (by simp)),
        ih fun d hd => hblank d (List.mem_append_left _ hd)]
  cases text with
  | nil => exact strip_eq_nil_iff.mpr hblank
  | cons c text =>
    have hc : ¬ isSpace c = true := by
      rw [hhead c rfl]
      exact Bool.false_ne_true
    rw [strip, List.cons_append, List.dropWhile_cons_of_neg hc]
    exact hright

/-! ## Case -/

/-- The letters that match a letter of a pattern under `re.IGNORECASE`: besides the two cases of it,
four letters beyond ASCII. -/
def ignoreCase (c d : Char) : Bool :=
  d.toLower = c.toLower || c.toLower = 'i' && (d = '\u0130' || d = '\u0131') ||
    c.toLower = 's' && d = '\u017f' || c.toLower = 'k' && d = '\u212a'

/-- `text.lower()`, of letters that `ignoreCase` lets through. -/
def lowered (text : List Char) : List Char :=
  text.flatMap fun c =>
    if c = '\u0130' then ['i', '\u0307'] else if c = '\u212a' then ['k'] else [c.toLower]

theorem toLower_eq_self {c : Char} (hc : c.toNat < 'A'.toNat ∨ 'Z'.toNat < c.toNat) :
    c.toLower = c := by
  refine dif_neg ?_
  rintro ⟨hA, hZ⟩
  exact hc.elim (Nat.not_lt.mpr hA) (Nat.not_lt.mpr hZ)

/-- No white space is a letter in some case. -/
theorem ignoreCase_of_isSpace {l c : Char} (hl : isSpace l.toLower = false)
    (hc : isSpace c = true) : ignoreCase l c = false := by
  have hlow : c.toLower = c := by
    refine toLower_eq_self ?_
    simp [isSpace] at hc
    change c.toNat < 65 ∨ 90 < c.toNat
    omega
  have hother : ∀ d ∈ ['\u0130', '\u0131', '\u017f', '\u212a'], c ≠ d := by
    intro d hd hcd
    have hword : ∀ d ∈ ['\u0130', '\u0131', '\u017f', '\u212a'], isSpace d = false := by
      simp [isSpace]
    rw [hcd, hword d hd] at hc
    exact absurd hc Bool.noConfusion
  simp only [List.mem_cons, List.not_mem_nil, or_false, forall_eq_or_imp, forall_eq] at hother
  have hsame : c.toLower ≠ l.toLower := by
    rw [hlow]
    rintro rfl
    rw [hc] at hl
    exact absurd hl Bool.noConfusion
  simp [ignoreCase, hsame, hother]

/-- But for the Kelvin sign, a letter that is not ASCII lower-cases to one that is not. -/
theorem lowered_ascii_iff {text : List Char} (hkelvin : '\u212a' ∉ text) :
    (∀ c ∈ lowered text, c.toNat < 128) ↔ ∀ c ∈ text, c.toNat < 128 := by
  unfold lowered
  rw [List.forall_mem_flatMap]
  refine forall₂_congr fun c hc => ?_
  split_ifs with hI hK
  · subst hI
    simp
  · exact absurd (hK ▸ hc) hkelvin
  · rw [List.forall_mem_singleton]
    by_cases hupper : c.toNat < 'A'.toNat ∨ 'Z'.toNat < c.toNat
    · rw [toLower_eq_self hupper]
    · obtain ⟨hA, hZ⟩ : 65 ≤ c.val.toNat ∧ c.val.toNat ≤ 90 :=
        ⟨Nat.le_of_not_lt fun h => hupper (.inl h), Nat.le_of_not_lt fun h => hupper (.inr h)⟩
      have hlower : c.toLower.toNat = (c.val + 32).toNat :=
        congrArg Char.toNat (dif_pos ⟨hA, hZ⟩)
      change c.toLower.toNat < 128 ↔ c.val.toNat < 128
      have hsum : (c.val + 32).toNat = (c.val.toNat + 32) % 2 ^ 32 := UInt32.toNat_add c.val 32
      rw [hlower, hsum, Nat.mod_eq_of_lt (by omega)]
      omega

/-- The Kelvin sign matches no letter of a word in lower case without a `k`. -/
theorem kelvin_notMem {word text : List Char}
    (hword : ∀ l ∈ word, l.toLower = l ∧ l.toNat < 128 ∧ l ≠ 'k')
    (hmatch : List.Forall₂ (fun l c => ignoreCase l c = true) word text) :
    '\u212a' ∉ text := by
  induction hmatch with
  | nil => exact List.not_mem_nil
  | @cons l c word text hc _ ih =>
    obtain ⟨hlow, hascii, hk⟩ := hword l (.head _)
    rintro (_ | ⟨_, hmem⟩)
    · have hl : l ≠ '\u212a' := by
        rintro rfl
        simp at hascii
      simp [ignoreCase, hlow, hk, hl.symm] at hc
    · exact ih (fun l hl => hword l (.tail _ hl)) hmem

/-- ASCII letters that match the letters of a word lower-case to the word. -/
theorem lowered_eq {word text : List Char} (hword : ∀ l ∈ word, l.toLower = l)
    (hmatch : List.Forall₂ (fun l c => ignoreCase l c = true) word text)
    (hascii : ∀ c ∈ text, c.toNat < 128) : lowered text = word := by
  induction hmatch with
  | nil => rfl
  | @cons l c word text hc _ ih =>
    have hrest := ih (fun l hl => hword l (.tail _ hl)) fun c hc => hascii c (.tail _ hc)
    have hother : ∀ d ∈ ['\u0130', '\u0131', '\u017f', '\u212a'], c ≠ d := by
      rintro d hd rfl
      have hbig : ∀ d ∈ ['\u0130', '\u0131', '\u017f', '\u212a'], ¬ d.toNat < 128 := by simp
      exact hbig c hd (hascii c (.head _))
    simp only [List.mem_cons, List.not_mem_nil, or_false, forall_eq_or_imp, forall_eq] at hother
    have hlow : c.toLower = l := by
      simpa [ignoreCase, hother, hword l (.head _)] using hc
    rw [lowered, List.flatMap_cons, if_neg hother.1, if_neg hother.2.2.2, hlow]
    exact congrArg (l :: ·) hrest

/-! ## Parts of a text -/

/-- `part in text` -/
def occursIn (part text : String) : Bool := decide (part.toList <:+: text.toList)

/-- The letters of a text with the first occurrence of a part replaced. -/
def replacedOnce (old new : List Char) : List Char → List Char
  | [] => if old = [] then new else []
  | c :: rest =>
    if old <+: c :: rest then new ++ (c :: rest).drop old.length
    else c :: replacedOnce old new rest

/-- `text.replace(old, new, 1)` -/
def replaceOnce (text old new : String) : String :=
  String.ofList (replacedOnce old.toList new.toList text.toList)

/-- **The part that is replaced is the first.** -/
theorem replacedOnce_append {old new before after : List Char} (hold : old ≠ [])
    (hfirst : ∀ before' rest, before ++ (old ++ after) = before' ++ rest →
      before'.length < before.length → ¬ old <+: rest) :
    replacedOnce old new (before ++ (old ++ after)) = before ++ (new ++ after) := by
  induction before with
  | nil =>
    obtain ⟨c, old', rfl⟩ := List.exists_cons_of_ne_nil hold
    rw [List.nil_append, List.cons_append, replacedOnce,
      if_pos (List.cons_append ▸ List.prefix_append (c :: old') after), ← List.cons_append,
      List.drop_left]
    rfl
  | cons c before ih =>
    have hnot : ¬ old <+: c :: (before ++ (old ++ after)) :=
      hfirst [] _ rfl (Nat.zero_lt_succ _)
    rw [List.cons_append, replacedOnce, if_neg hnot,
      ih fun before' rest heq hlt => hfirst (c :: before') rest (by rw [List.cons_append, heq]; rfl)
        (Nat.succ_lt_succ hlt)]
    rfl

/-- A part that occurs is replaced in one place. -/
theorem exists_replacedOnce {old text : List Char} (h : old <:+: text) (new : List Char) :
    ∃ before after, text = before ++ (old ++ after) ∧
      replacedOnce old new text = before ++ (new ++ after) := by
  induction text with
  | nil =>
    obtain rfl := List.infix_nil.mp h
    exact ⟨[], [], rfl, by rw [replacedOnce, if_pos rfl, List.append_nil]; rfl⟩
  | cons c text ih =>
    by_cases hhere : old <+: c :: text
    · obtain ⟨after, hafter⟩ := hhere
      refine ⟨[], after, hafter.symm, ?_⟩
      rw [replacedOnce, if_pos ⟨after, hafter⟩, ← hafter, List.drop_left]
      rfl
    · obtain ⟨before, after, hrest, hreplaced⟩ :=
        ih ((List.infix_cons_iff.mp h).resolve_left hhere)
      refine ⟨c :: before, after, congrArg (c :: ·) hrest, ?_⟩
      rw [replacedOnce, if_neg hhere, hreplaced]
      rfl

/-! ## Numbers -/

/-- The Unicode database of the interpreter. -/
class UnicodeData where
  /-- `unicodedata.decimal(c, None)` -/
  decimal : Char → Option ℕ
  /-- no character is both a digit and white space -/
  decimal_of_isSpace : ∀ c, isSpace c = true → decimal c = none

variable [UnicodeData]

/-- `c.isdecimal()`, which is `\d` too -/
def isDecimal (c : Char) : Bool := (UnicodeData.decimal c).isSome

theorem isDecimal_of_isSpace {c : Char} (hc : isSpace c = true) : isDecimal c = false := by
  rw [isDecimal, UnicodeData.decimal_of_isSpace c hc]
  rfl

/-- The number that digits denote. -/
def digitsValue (digits : List Char) : ℕ :=
  digits.foldl (fun value c => 10 * value + (UnicodeData.decimal c).getD 0) 0

/-- `float(text)`, of digits with at most one point between them. -/
def floatOfText (text : List Char) : PyFloat :=
  let whole := text.takeWhile (· ≠ '.')
  let fraction := (text.dropWhile (· ≠ '.')).tail
  .nearest (digitsValue (whole ++ fraction) / 10 ^ fraction.length)

/-- The number that digits with at most one point between them denote, before it is rounded. -/
def decimalOfText (text : List Char) : ℚ :=
  let whole := text.takeWhile (· ≠ '.')
  let fraction := (text.dropWhile (· ≠ '.')).tail
  digitsValue (whole ++ fraction) / 10 ^ fraction.length

/-- `float` rounds the number to a double. -/
theorem floatOfText_eq (text : List Char) : floatOfText text = .nearest (decimalOfText text) := rfl

theorem decimalOfText_nonneg (text : List Char) : 0 ≤ decimalOfText text :=
  div_nonneg (Nat.cast_nonneg _) (pow_nonneg (by norm_num) _)

/-- A database to evaluate with, of the ASCII digits. -/
abbrev asciiDigits : UnicodeData where
  decimal c := if 48 ≤ c.toNat ∧ c.toNat ≤ 57 then some (c.toNat - 48) else none
  decimal_of_isSpace c hc := by
    simp [isSpace] at hc
    exact if_neg (by omega)

/-! ## The ASCII digits -/

/-- Of the ASCII characters the digits are decimal, each with its value, and no other. -/
def DecimalAscii : Prop :=
  ∀ c : Char, c.toNat < 128 →
    UnicodeData.decimal c = if c.isDigit then some (c.toNat - '0'.toNat) else none

theorem DecimalAscii.isDecimal_eq (hascii : DecimalAscii) {c : Char} (hc : c.toNat < 128) :
    isDecimal c = c.isDigit := by
  rw [isDecimal, hascii c hc]
  cases c.isDigit <;> rfl

omit [UnicodeData] in
theorem toNat_lt_of_isDigit {c : Char} (hc : c.isDigit = true) : c.toNat < 128 := by
  have hle : c.toNat ≤ 57 := (Bool.and_eq_true_iff.mp hc).2 |> of_decide_eq_true
  omega

theorem DecimalAscii.isDecimal_of_isDigit (hascii : DecimalAscii) {c : Char}
    (hc : c.isDigit = true) : isDecimal c = true := by
  rw [hascii.isDecimal_eq (toNat_lt_of_isDigit hc), hc]

/-- ASCII digits denote what the language itself reads them as. -/
theorem DecimalAscii.digitsValue_eq (hascii : DecimalAscii) {digits : List Char}
    (hdigits : ∀ c ∈ digits, c.isDigit = true) :
    digitsValue digits = Nat.ofDigitChars 10 digits 0 := by
  rw [digitsValue, Nat.ofDigitChars_eq_foldl]
  refine List.foldl_ext _ _ 0 fun value c hc => ?_
  rw [hascii c (toNat_lt_of_isDigit (hdigits c hc)), if_pos (hdigits c hc)]
  rfl

omit [UnicodeData] in
theorem decimalAscii_asciiDigits : @DecimalAscii asciiDigits := by
  intro c hc
  have hdigit : c.isDigit = true ↔ 48 ≤ c.toNat ∧ c.toNat ≤ 57 := by
    rw [Char.isDigit, Bool.and_eq_true, decide_eq_true_eq, decide_eq_true_eq]
    exact Iff.rfl
  change (if 48 ≤ c.toNat ∧ c.toNat ≤ 57 then some (c.toNat - 48) else none) = _
  rw [if_congr hdigit.symm rfl rfl]
  rfl

end AgentProof
