import AgentProof.Machinery.Codes
import AgentProof.ToolEnvironment.Interpreter
import Mathlib.Data.List.Forall2

/-!
# Platform/Dumps — `json.dumps(…, sort_keys=True, separators=(",", ":"))`

The text is that of the value with the keys of every object in order (`Json.sortKeys`).  Strings are
escaped to ASCII: a character outside the basic plane becomes the two escapes of its UTF-16
surrogates.

**The text determines the value up to the order of the keys** (`Json.dumps_eq_dumps_iff`), at any
depth and whatever the strings hold.  Where floats occur, this rests on their `repr`
(`ReprFloat`).
-/

open Machinery

namespace AgentProof

/-! ## Up to the order of the keys -/

namespace Json

mutual

/-- The value with the keys of every object in increasing order. -/
def sortKeys : Json → Json
  | .arr items => .arr (sortKeysItems items)
  | .obj fields => .obj (Dict.sorted (sortKeysFields fields))
  | j => j

/-- `sortKeys` of every item. -/
def sortKeysItems : List Json → List Json
  | [] => []
  | j :: js => sortKeys j :: sortKeysItems js

/-- `sortKeys` of every field. -/
def sortKeysFields : List (String × Json) → List (String × Json)
  | [] => []
  | (k, j) :: fields => (k, sortKeys j) :: sortKeysFields fields

end

theorem sortKeysItems_eq_map (items : List Json) : sortKeysItems items = items.map sortKeys := by
  induction items with
  | nil => rfl
  | cons j js ih => rw [sortKeysItems, ih, List.map_cons]

theorem sortKeysFields_eq_map (fields : List (String × Json)) :
    sortKeysFields fields = fields.map fun e => (e.1, e.2.sortKeys) := by
  induction fields with
  | nil => rfl
  | cons e fields ih => rw [sortKeysFields, ih, List.map_cons]

/-- The same JSON value: equal up to the order of the keys of objects, at any depth. -/
def Same (a b : Json) : Prop := a.sortKeys = b.sortKeys

instance (a b : Json) : Decidable (Same a b) := inferInstanceAs (Decidable (_ = _))

@[refl] theorem Same.refl (a : Json) : Same a a := rfl

/-- A string is the same as itself only. -/
@[simp] theorem same_str_iff {s t : String} : Same (.str s) (.str t) ↔ s = t := by
  simp [Same, sortKeys]

/-- **Two lists are the same when their items are, in order.** -/
theorem same_arr_iff {xs ys : List Json} :
    Same (.arr xs) (.arr ys) ↔ List.Forall₂ Same xs ys := by
  have hmap : Same (.arr xs) (.arr ys) ↔ xs.map sortKeys = ys.map sortKeys := by
    simp only [Same, sortKeys, arr.injEq, sortKeysItems_eq_map]
  rw [hmap, ← List.forall₂_eq_eq_eq, List.forall₂_map_left_iff, List.forall₂_map_right_iff]
  rfl

/-- **Two objects are the same when they have the same keys, and the same value under each.** -/
theorem same_obj_iff {fs gs : Dict String Json} :
    Same (.obj fs) (.obj gs) ↔
      ∀ k, Option.Rel Same (Dict.get? fs k) (Dict.get? gs k) := by
  have hmap : Same (.obj fs) (.obj gs) ↔
      ∀ k, (Dict.get? fs k).map sortKeys = (Dict.get? gs k).map sortKeys := by
    simp only [Same, sortKeys, obj.injEq, Dict.sorted_eq_sorted_iff, sortKeysFields_eq_map,
      Dict.get?_map]
  rw [hmap]
  refine forall_congr' fun k => ?_
  rcases Dict.get? fs k with _ | a <;> rcases Dict.get? gs k with _ | b <;> simp [Same]

/-- A value that is no list and no object. -/
def scalar : Json → Bool
  | .arr _ | .obj _ => false
  | _ => true

/-! ## The text -/

end Json

/-- Four hexadecimal digits. -/
def hex4 (n : ℕ) : List Char :=
  [(n / 4096 % 16).digitChar, (n / 256 % 16).digitChar, (n / 16 % 16).digitChar,
    (n % 16).digitChar]

/-- The UTF-16 code units of a character. -/
def utf16 (c : Char) : List ℕ :=
  if c.toNat < 0x10000 then [c.toNat]
  else [0xD800 + (c.toNat - 0x10000) / 0x400, 0xDC00 + (c.toNat - 0x10000) % 0x400]

/-- The quotation mark. -/
abbrev quoteMark : Char := '\x22'

/-- The backslash. -/
abbrev backslash : Char := '\x5c'

/-- `ESCAPE_DCT`: the letter after the backslash. -/
def escapeDct : Dict Char Char :=
  [(backslash, backslash), (quoteMark, quoteMark), ('\x08', 'b'), ('\x0c', 'f'), ('\x0a', 'n'),
    ('\x0d', 'r'), ('\x09', 't')]

/-- One character of a string, as `py_encode_basestring_ascii` writes it. -/
def escape (c : Char) : List Char :=
  match Dict.get? escapeDct c with
  | some x => [backslash, x]
  | none =>
    if ' ' ≤ c ∧ c ≤ '~' then [c] else (utf16 c).flatMap fun n => backslash :: 'u' :: hex4 n

/-- `py_encode_basestring_ascii(s)` -/
def quoted (s : String) : List Char := quoteMark :: (s.toList.flatMap escape ++ [quoteMark])

namespace Json

variable [Interpreter]

mutual

/-- The text of a value, its keys in the order they have. -/
def render : Json → List Char
  | .null => "null".toList
  | .bool b => if b then "true".toList else "false".toList
  | .int n => (toString n).toList
  | .float x => (Interpreter.reprFloat x).toList
  | .str s => quoted s
  | .arr items => '[' :: (List.intercalate [','] (renderItems items) ++ [']'])
  | .obj fields => '\x7b' :: (List.intercalate [','] (renderFields fields) ++ ['\x7d'])

/-- The texts of the items. -/
def renderItems : List Json → List (List Char)
  | [] => []
  | j :: js => render j :: renderItems js

/-- The texts of the fields. -/
def renderFields : List (String × Json) → List (List Char)
  | [] => []
  | (k, j) :: fields => (quoted k ++ ':' :: render j) :: renderFields fields

end

/-- `json.dumps(j, sort_keys=True, separators=(",", ":"))` -/
def dumps (j : Json) : String := String.ofList j.sortKeys.render

end Json

/-! ## Strings are read back -/

theorem digitChar_inj {a b : ℕ} (ha : a < 16) (hb : b < 16) (h : a.digitChar = b.digitChar) :
    a = b := by
  have hall : ∀ a < 16, ∀ b < 16, Nat.digitChar a = Nat.digitChar b → a = b := by decide
  exact hall a ha b hb h

/-- Four digits are the number below `2 ^ 16` they stand for. -/
theorem hex4_append_inj {m n : ℕ} {rest rest' : List Char} (hm : m < 0x10000) (hn : n < 0x10000)
    (h : hex4 m ++ rest = hex4 n ++ rest') : m = n ∧ rest = rest' := by
  simp only [hex4, List.cons_append, List.nil_append, List.cons.injEq] at h
  obtain ⟨h₃, h₂, h₁, h₀, hrest⟩ := h
  have h₃ := digitChar_inj (by omega) (by omega) h₃
  have h₂ := digitChar_inj (by omega) (by omega) h₂
  have h₁ := digitChar_inj (by omega) (by omega) h₁
  have h₀ := digitChar_inj (by omega) (by omega) h₀
  exact ⟨by omega, hrest⟩

/-- A character is no surrogate. -/
theorem toNat_valid (c : Char) : c.toNat < 0xD800 ∨ 0xDFFF < c.toNat ∧ c.toNat < 0x110000 :=
  c.valid

/-- The letter determines the character. -/
theorem escapeDct_inj {a b x : Char} (ha : Dict.get? escapeDct a = some x)
    (hb : Dict.get? escapeDct b = some x) : a = b := by
  have hall : ∀ e ∈ escapeDct, ∀ e' ∈ escapeDct, e.2 = e'.2 → e.1 = e'.1 := by decide
  exact hall _ (Dict.mem_of_get?_eq_some ha) _ (Dict.mem_of_get?_eq_some hb) rfl

/-- `u` is no short escape. -/
theorem escapeDct_ne {a x : Char} (h : Dict.get? escapeDct a = some x) : x ≠ 'u' := by
  have hall : ∀ e ∈ escapeDct, e.2 ≠ 'u' := by decide
  exact hall _ (Dict.mem_of_get?_eq_some h)

/-- A backslash or a quotation mark has a short escape. -/
theorem ne_of_escapeDct {c : Char} (h : Dict.get? escapeDct c = none) :
    c ≠ backslash ∧ c ≠ quoteMark := by
  constructor <;> (rintro rfl; exact absurd h (by decide))

/-- The three forms of what is written for a character. -/
theorem escape_cases (c : Char) :
    (∃ x, Dict.get? escapeDct c = some x ∧ escape c = [backslash, x]) ∨
      ((c ≠ backslash ∧ c ≠ quoteMark) ∧ escape c = [c]) ∨
      escape c = (utf16 c).flatMap fun n => backslash :: 'u' :: hex4 n := by
  rw [escape]
  cases hc : Dict.get? escapeDct c with
  | some x => exact .inl ⟨x, rfl, rfl⟩
  | none =>
    by_cases hplain : ' ' ≤ c ∧ c ≤ '~'
    · exact .inr (.inl ⟨ne_of_escapeDct hc, if_pos hplain⟩)
    · exact .inr (.inr (if_neg hplain))

theorem utf16_flatMap (c : Char) :
    ∃ text, (utf16 c).flatMap (fun n => backslash :: 'u' :: hex4 n) = backslash :: 'u' :: text := by
  rw [utf16]
  split_ifs <;> exact ⟨_, rfl⟩

/-- The escapes of the code units are read back. -/
theorem utf16_append_inj {a b : Char} {rest rest' : List Char}
    (h : ((utf16 a).flatMap fun n => backslash :: 'u' :: hex4 n) ++ rest =
      ((utf16 b).flatMap fun n => backslash :: 'u' :: hex4 n) ++ rest') : a = b ∧ rest = rest' := by
  have ha := toNat_valid a
  have hb := toNat_valid b
  rw [utf16, utf16] at h
  split_ifs at h with hba hbb hbb
  · simp only [List.flatMap_cons, List.flatMap_nil, List.append_nil, List.cons_append,
      List.cons.injEq, true_and] at h
    obtain ⟨heq, hrest⟩ := hex4_append_inj hba hbb h
    exact ⟨Char.toNat_inj.mp heq, hrest⟩
  · -- a high surrogate is no character
    simp only [List.flatMap_cons, List.flatMap_nil, List.append_nil, List.cons_append,
      List.append_assoc, List.cons.injEq, true_and] at h
    obtain ⟨heq, -⟩ := hex4_append_inj hba (by omega) h
    omega
  · simp only [List.flatMap_cons, List.flatMap_nil, List.append_nil, List.cons_append,
      List.append_assoc, List.cons.injEq, true_and] at h
    obtain ⟨heq, -⟩ := hex4_append_inj (by omega) hbb h
    omega
  · simp only [List.flatMap_cons, List.flatMap_nil, List.append_nil, List.cons_append,
      List.append_assoc, List.cons.injEq, true_and] at h
    obtain ⟨hhigh, hlow⟩ := hex4_append_inj (by omega) (by omega) h
    simp only [List.cons.injEq, true_and] at hlow
    obtain ⟨hlow, hrest⟩ := hex4_append_inj (by omega) (by omega) hlow
    exact ⟨Char.toNat_inj.mp (by omega), hrest⟩

/-- **What is written for a character is read back.** -/
theorem escape_readBack (a : Char) : ReadBack escape (fun _ => True) (fun _ => True) a := by
  intro b rest rest' _ _ _ h
  obtain ⟨atext, hau⟩ := utf16_flatMap a
  obtain ⟨btext, hbu⟩ := utf16_flatMap b
  rcases escape_cases a with ⟨x, hx, ha⟩ | ⟨⟨ha', -⟩, ha⟩ | ha <;>
    rcases escape_cases b with ⟨y, hy, hb⟩ | ⟨⟨hb', -⟩, hb⟩ | hb <;> rw [ha, hb] at h
  · obtain ⟨rfl, hrest⟩ : x = y ∧ rest = rest' := by simpa using h
    exact ⟨escapeDct_inj hx hy, hrest⟩
  · exact absurd (List.cons.inj h).1.symm hb'
  · rw [hbu] at h
    exact absurd (List.cons.inj (List.cons.inj h).2).1 (escapeDct_ne hx)
  · exact absurd (List.cons.inj h).1 ha'
  · exact ⟨(List.cons.inj h).1, (List.cons.inj h).2⟩
  · rw [hbu] at h
    exact absurd (List.cons.inj h).1 ha'
  · rw [hau] at h
    exact absurd (List.cons.inj (List.cons.inj h).2).1.symm (escapeDct_ne hy)
  · rw [hau] at h
    exact absurd (List.cons.inj h).1.symm hb'
  · exact utf16_append_inj h

/-- No character begins with a quotation mark. -/
theorem escape_begins (c : Char) : ∃ d text, escape c = d :: text ∧ d ≠ quoteMark := by
  rcases escape_cases c with ⟨x, -, hc⟩ | ⟨⟨-, hne⟩, hc⟩ | hc
  · exact ⟨_, _, hc, by decide⟩
  · exact ⟨_, _, hc, hne⟩
  · obtain ⟨text, htext⟩ := utf16_flatMap c
    exact ⟨_, _, hc.trans htext, by decide⟩

/-- **A string is read back, whatever it holds.** -/
theorem quoted_readBack (s : String) : ReadBack quoted (fun _ => True) (fun _ => True) s := by
  intro t rest rest' _ _ _ h
  obtain ⟨hword, hrest⟩ := ReadBack.terminated escape_readBack escape_begins s.toList t.toList rest
    rest' trivial (stopped_true _) (stopped_true _) (List.cons.inj h).2
  exact ⟨String.toList_inj.mp hword, hrest⟩

/-! ## Integers are read back -/

theorem toDigits_inj {m n : ℕ} (h : Nat.toDigits 10 m = Nat.toDigits 10 n) : m = n := by
  rw [← Nat.ofDigitChars_ten_toDigits (n := m), h, Nat.ofDigitChars_ten_toDigits]

theorem isDigit_of_mem_toDigits {n : ℕ} {c : Char} (h : c ∈ Nat.toDigits 10 n) :
    c.isDigit = true := Nat.isDigit_of_mem_toDigits (by omega) (by omega) h

theorem toString_ofNat (n : ℕ) : (toString (Int.ofNat n)).toList = Nat.toDigits 10 n :=
  Nat.toList_repr

theorem toString_negSucc (n : ℕ) :
    (toString (Int.negSucc n)).toList = '-' :: Nat.toDigits 10 (n + 1) := by
  have h : toString (Int.negSucc n) = "-" ++ (n + 1).repr := rfl
  rw [h, String.toList_append, Nat.toList_repr]
  rfl

/-- An integer is written with digits and a sign. -/
theorem toString_int_chars (n : ℤ) : ∀ c ∈ (toString n).toList, c.isDigit = true ∨ c = '-' := by
  intro c hc
  cases n with
  | ofNat m =>
    rw [toString_ofNat] at hc
    exact .inl (isDigit_of_mem_toDigits hc)
  | negSucc m =>
    rw [toString_negSucc] at hc
    exact (List.mem_cons.mp hc).symm.imp_left isDigit_of_mem_toDigits

theorem toString_int_ne_nil (n : ℤ) : (toString n).toList ≠ [] := by
  cases n with
  | ofNat m =>
    rw [toString_ofNat]
    exact Nat.toDigits_ne_nil
  | negSucc m =>
    rw [toString_negSucc]
    exact List.cons_ne_nil _ _

/-- The sign tells the negative integers apart. -/
theorem toString_ofNat_ne (m n : ℕ) :
    (toString (Int.ofNat m)).toList ≠ (toString (Int.negSucc n)).toList := by
  intro h
  rw [toString_ofNat, toString_negSucc] at h
  have hdigit : '-'.isDigit = true := isDigit_of_mem_toDigits (n := m) (by simp [h])
  exact absurd hdigit (by decide)

/-- **Integers with the same decimals are the same.** -/
theorem toString_int_inj {m n : ℤ} (h : (toString m).toList = (toString n).toList) : m = n := by
  cases m with
  | ofNat m =>
    cases n with
    | ofNat n =>
      rw [toString_ofNat, toString_ofNat] at h
      exact congrArg Int.ofNat (toDigits_inj h)
    | negSucc n => exact absurd h (toString_ofNat_ne m n)
  | negSucc m =>
    cases n with
    | ofNat n => exact absurd h.symm (toString_ofNat_ne n m)
    | negSucc n =>
      rw [toString_negSucc, toString_negSucc] at h
      exact congrArg Int.negSucc (Nat.succ.inj (toDigits_inj (List.cons.inj h).2))

/-! ## Values are read back -/

/-- A character of a number or of a literal. -/
def tokenChar (c : Char) : Prop := c.isAlphanum = true ∨ c = '-' ∨ c = '+' ∨ c = '.'

instance (c : Char) : Decidable (tokenChar c) := inferInstanceAs (Decidable (_ ∨ _))

/-- `float.__repr__` on the floats of `p`: the shortest decimal that reads back, with a point or an
exponent. -/
structure ReprFloat [Interpreter] (p : PyFloat → Bool) : Prop where
  injective : ∀ {x y}, p x = true → p y = true →
    Interpreter.reprFloat x = Interpreter.reprFloat y → x = y
  chars : ∀ {x}, p x = true → ∀ c ∈ (Interpreter.reprFloat x).toList,
    c.isDigit = true ∨ c ∈ ['e', '+', '-', '.']
  notInt : ∀ {x}, p x = true → ∃ c ∈ (Interpreter.reprFloat x).toList, c ∈ ['e', '.']

/-- Where there is no float, nothing is asked of their `repr`. -/
theorem reprFloat_false [Interpreter] : ReprFloat fun _ => false :=
  ⟨fun h => absurd h (by simp), fun h => absurd h (by simp), fun h => absurd h (by simp)⟩

namespace Json

mutual

/-- Every float of a value, at any depth, passes a test. -/
def floatsAll (p : PyFloat → Bool) : Json → Bool
  | .float x => p x
  | .arr items => floatsAllItems p items
  | .obj fields => floatsAllFields p fields
  | _ => true

/-- `floatsAll` of every item. -/
def floatsAllItems (p : PyFloat → Bool) : List Json → Bool
  | [] => true
  | j :: js => j.floatsAll p && floatsAllItems p js

/-- `floatsAll` of every field. -/
def floatsAllFields (p : PyFloat → Bool) : List (String × Json) → Bool
  | [] => true
  | (_, j) :: fields => j.floatsAll p && floatsAllFields p fields

end

/-- A value without floats. -/
def floatFree (j : Json) : Bool := j.floatsAll fun _ => false

/-! ### Literals and numbers -/

/-- The text of a number is no literal. -/
theorem literal_ne_number {text : List Char}
    (h : ∀ c ∈ text, c.isDigit = true ∨ c ∈ ['e', '+', '-', '.']) :
    "null".toList ≠ text ∧ "true".toList ≠ text ∧ "false".toList ≠ text := by
  refine ⟨?_, ?_, ?_⟩ <;> rintro rfl
  · exact absurd (h 'n' (by decide)) (by decide)
  · exact absurd (h 't' (by decide)) (by decide)
  · exact absurd (h 'f' (by decide)) (by decide)

theorem int_chars (n : ℤ) :
    ∀ c ∈ (toString n).toList, c.isDigit = true ∨ c ∈ ['e', '+', '-', '.'] := fun c hc =>
  (toString_int_chars n c hc).imp_right fun h => by simp [h]

section

variable [Interpreter] {p : PyFloat → Bool}

/-- A literal or a number. -/
def isToken : Json → Bool
  | .null | .bool _ | .int _ | .float _ => true
  | .str _ | .arr _ | .obj _ => false

/-- The characters of a literal or a number. -/
theorem token_chars (hrepr : ReprFloat p) : ∀ {j : Json}, j.isToken = true →
    j.floatsAll p = true → ∀ c ∈ j.render, tokenChar c
  | .null, _, _ => show ∀ c ∈ "null".toList, tokenChar c by simp [tokenChar]
  | .bool true, _, _ => show ∀ c ∈ "true".toList, tokenChar c by simp [tokenChar]
  | .bool false, _, _ => show ∀ c ∈ "false".toList, tokenChar c by simp [tokenChar]
  | .int n, _, _ => fun c hc => by
    rcases toString_int_chars n c hc with hdigit | rfl
    · exact .inl (by simp [Char.isAlphanum, hdigit])
    · exact .inr (.inl rfl)
  | .float x, _, hx => fun c hc => by
    rcases hrepr.chars hx c hc with hdigit | hmem
    · exact .inl (by simp [Char.isAlphanum, hdigit])
    · have hall : ∀ c ∈ ['e', '+', '-', '.'], tokenChar c := by simp [tokenChar]
      exact hall c hmem

theorem token_ne_nil (hrepr : ReprFloat p) : ∀ {j : Json}, j.isToken = true →
    j.floatsAll p = true → j.render ≠ []
  | .null, _, _ => show "null".toList ≠ [] by decide
  | .bool true, _, _ => show "true".toList ≠ [] by decide
  | .bool false, _, _ => show "false".toList ≠ [] by decide
  | .int n, _, _ => toString_int_ne_nil n
  | .float x, _, hx => by
    obtain ⟨c, hc, -⟩ := hrepr.notInt hx
    exact List.ne_nil_of_mem hc

/-- A float is no integer. -/
theorem int_ne_float (hrepr : ReprFloat p) {x : PyFloat} (hx : p x = true) (n : ℤ) :
    (toString n).toList ≠ (Interpreter.reprFloat x).toList := by
  intro h
  obtain ⟨c, hc, hmem⟩ := hrepr.notInt hx
  rw [← h] at hc
  have hall : ∀ c ∈ ['e', '.'], ¬ (c.isDigit = true ∨ c = '-') := by simp
  exact hall c hmem (toString_int_chars n c hc)

/-- **Literals and numbers are told apart.** -/
theorem token_inj (hrepr : ReprFloat p) : ∀ {a b : Json}, a.isToken = true → b.isToken = true →
    a.floatsAll p = true → b.floatsAll p = true → a.render = b.render → a = b
  | .null, .null, _, _, _, _, _ => rfl
  | .bool true, .bool true, _, _, _, _, _ => rfl
  | .bool false, .bool false, _, _, _, _, _ => rfl
  | .null, .bool true, _, _, _, _, h => absurd h (show "null".toList ≠ "true".toList by decide)
  | .null, .bool false, _, _, _, _, h => absurd h (show "null".toList ≠ "false".toList by decide)
  | .bool true, .null, _, _, _, _, h => absurd h (show "true".toList ≠ "null".toList by decide)
  | .bool false, .null, _, _, _, _, h => absurd h (show "false".toList ≠ "null".toList by decide)
  | .bool true, .bool false, _, _, _, _, h =>
    absurd h (show "true".toList ≠ "false".toList by decide)
  | .bool false, .bool true, _, _, _, _, h =>
    absurd h (show "false".toList ≠ "true".toList by decide)
  | .null, .int n, _, _, _, _, h => absurd h (literal_ne_number (int_chars n)).1
  | .int m, .null, _, _, _, _, h => absurd h.symm (literal_ne_number (int_chars m)).1
  | .null, .float y, _, _, _, hy, h => absurd h (literal_ne_number (hrepr.chars hy)).1
  | .float x, .null, _, _, hx, _, h => absurd h.symm (literal_ne_number (hrepr.chars hx)).1
  | .bool true, .int n, _, _, _, _, h => absurd h (literal_ne_number (int_chars n)).2.1
  | .bool false, .int n, _, _, _, _, h => absurd h (literal_ne_number (int_chars n)).2.2
  | .int m, .bool true, _, _, _, _, h => absurd h.symm (literal_ne_number (int_chars m)).2.1
  | .int m, .bool false, _, _, _, _, h => absurd h.symm (literal_ne_number (int_chars m)).2.2
  | .bool true, .float y, _, _, _, hy, h => absurd h (literal_ne_number (hrepr.chars hy)).2.1
  | .bool false, .float y, _, _, _, hy, h => absurd h (literal_ne_number (hrepr.chars hy)).2.2
  | .float x, .bool true, _, _, hx, _, h => absurd h.symm (literal_ne_number (hrepr.chars hx)).2.1
  | .float x, .bool false, _, _, hx, _, h => absurd h.symm (literal_ne_number (hrepr.chars hx)).2.2
  | .int _, .int _, _, _, _, _, h => congrArg Json.int (toString_int_inj h)
  | .int m, .float y, _, _, _, hy, h => absurd h (int_ne_float hrepr hy m)
  | .float x, .int n, _, _, hx, _, h => absurd h.symm (int_ne_float hrepr hx n)
  | .float _, .float _, _, _, hx, hy, h =>
    congrArg Json.float (hrepr.injective hx hy (String.toList_inj.mp h))

/-! ### Structures -/

/-- The first character of a string, a list or an object. -/
def opening : Json → Option Char
  | .str _ => some quoteMark
  | .arr _ => some '['
  | .obj _ => some '\x7b'
  | _ => none

/-- How the text of a value begins. -/
theorem render_begins (hrepr : ReprFloat p) {j : Json} (hj : j.floatsAll p = true) :
    ∃ c text, j.render = c :: text ∧
      (j.opening = some c ∨ j.isToken = true ∧ j.opening = none ∧ tokenChar c) := by
  by_cases htoken : j.isToken = true
  · obtain ⟨c, text, htext⟩ := List.exists_cons_of_ne_nil (token_ne_nil hrepr htoken hj)
    have hc : tokenChar c := token_chars hrepr htoken hj c (by simp [htext])
    have hnone : j.opening = none := by cases j <;> simp_all [isToken, opening]
    exact ⟨c, text, htext, .inr ⟨htoken, hnone, hc⟩⟩
  · cases j with
    | str s => exact ⟨_, _, rfl, .inl rfl⟩
    | arr items => exact ⟨_, _, rfl, .inl rfl⟩
    | obj fields => exact ⟨_, _, rfl, .inl rfl⟩
    | _ => exact absurd rfl htoken

/-- Values of different kinds begin differently. -/
theorem opening_eq (hrepr : ReprFloat p) {a b : Json} (ha : a.floatsAll p = true)
    (hb : b.floatsAll p = true) {rest rest' : List Char}
    (h : a.render ++ rest = b.render ++ rest') : a.opening = b.opening := by
  have hopening : ∀ {j : Json} {c : Char}, j.opening = some c → ¬ tokenChar c := by
    intro j c hc
    cases j <;> simp only [opening, reduceCtorEq, Option.some.injEq] at hc <;> subst hc <;> decide
  obtain ⟨c, text, hatext, hac⟩ := render_begins hrepr ha
  obtain ⟨d, text', hbtext, hbd⟩ := render_begins hrepr hb
  rw [hatext, hbtext] at h
  obtain rfl : c = d := (List.cons.inj h).1
  rcases hac with hac | ⟨-, hac, hatoken⟩ <;> rcases hbd with hbd | ⟨-, hbd, hbtoken⟩
  · rw [hac, hbd]
  · exact absurd hbtoken (hopening hac)
  · exact absurd hatoken (hopening hbd)
  · rw [hac, hbd]

theorem renderItems_eq_map (items : List Json) : renderItems items = items.map render := by
  induction items with
  | nil => rfl
  | cons j js ih => rw [renderItems, ih, List.map_cons]

theorem renderFields_eq_map (fields : List (String × Json)) :
    renderFields fields = fields.map fun e => quoted e.1 ++ ':' :: e.2.render := by
  induction fields with
  | nil => rfl
  | cons e fields ih => rw [renderFields, ih, List.map_cons]

omit [Interpreter] in
theorem floatsAllItems_iff {items : List Json} :
    floatsAllItems p items = true ↔ ∀ j ∈ items, j.floatsAll p = true := by
  induction items with
  | nil => simp [floatsAllItems]
  | cons j js ih => simp [floatsAllItems, ih]

omit [Interpreter] in
theorem floatsAllFields_iff {fields : List (String × Json)} :
    floatsAllFields p fields = true ↔ ∀ e ∈ fields, e.2.floatsAll p = true := by
  induction fields with
  | nil => simp [floatsAllFields]
  | cons e fields ih => simp [floatsAllFields, ih]

/-- No value begins with a closing bracket. -/
theorem render_ne_bracket (hrepr : ReprFloat p) {j : Json} (hj : j.floatsAll p = true) :
    ∃ c text, j.render = c :: text ∧ c ≠ ']' := by
  obtain ⟨c, text, htext, hc⟩ := render_begins hrepr hj
  refine ⟨c, text, htext, ?_⟩
  rintro rfl
  rcases hc with hc | ⟨-, -, hc⟩
  · cases j <;> simp [opening, quoteMark] at hc
  · exact absurd hc (by decide)

/-- What is written for a value is read back, up to a character of no token. -/
abbrev Readable (p : PyFloat → Bool) (j : Json) : Prop :=
  ReadBack render (fun k => k.floatsAll p = true) (fun c => ¬ tokenChar c) j

/-- A literal or a number ends where its characters end. -/
theorem readable_token (hrepr : ReprFloat p) {j : Json} (htoken : j.isToken = true)
    (hj : j.floatsAll p = true) : Readable p j := by
  intro k rest rest' hk hrest hrest' h
  have hopening := opening_eq hrepr hj hk h
  have hktoken : k.isToken = true := by
    cases j <;> cases k <;> simp_all [isToken, opening]
  obtain ⟨heq, hrest⟩ := append_inj_of_stopped
    (fun c hc => not_not.mpr (token_chars hrepr htoken hj c hc))
    (fun c hc => not_not.mpr (token_chars hrepr hktoken hk c hc)) hrest hrest' h
  exact ⟨token_inj hrepr htoken hktoken hj hk heq, hrest⟩

theorem readable_str (hrepr : ReprFloat p) (s : String) : Readable p (.str s) := by
  intro k rest rest' hk _ _ h
  have hopening := opening_eq (a := .str s) hrepr rfl hk h
  cases k with
  | str t =>
    obtain ⟨rfl, hrest⟩ := quoted_readBack s t rest rest' trivial (stopped_true _)
      (stopped_true _) h
    exact ⟨rfl, hrest⟩
  | _ => simp [opening, quoteMark] at hopening

theorem readable_arr (hrepr : ReprFloat p) {items : List Json}
    (hitems : ∀ j ∈ items, j.floatsAll p = true) (h : ∀ j ∈ items, Readable p j) :
    Readable p (.arr items) := by
  intro k rest rest' hk _ _ heq
  have hopening := opening_eq (a := .arr items) hrepr (floatsAllItems_iff.mpr hitems) hk heq
  cases k with
  | arr items' =>
    simp only [render, renderItems_eq_map, List.cons_append, List.cons.injEq, true_and] at heq
    have hread := @ReadBack.separated _ _ (fun c => ¬ tokenChar c) _ _ _ _ (by decide) (by decide)
      (by decide : ',' ≠ ']')
      (fun j hj => render_ne_bracket hrepr hj) _ hitems h
    obtain ⟨rfl, hrest⟩ := hread items' rest rest' (floatsAllItems_iff.mp hk) (stopped_true _)
      (stopped_true _) heq
    exact ⟨rfl, hrest⟩
  | _ => simp [opening, quoteMark] at hopening

theorem readable_obj (hrepr : ReprFloat p) {fields : List (String × Json)}
    (hfields : ∀ e ∈ fields, e.2.floatsAll p = true) (h : ∀ e ∈ fields, Readable p e.2) :
    Readable p (.obj fields) := by
  intro k rest rest' hk _ _ heq
  have hopening := opening_eq (a := .obj fields) hrepr (floatsAllFields_iff.mpr hfields) hk heq
  cases k with
  | obj fields' =>
    simp only [render, renderFields_eq_map, List.cons_append, List.cons.injEq, true_and] at heq
    have hread := @ReadBack.separated (String × Json) Char (fun c => ¬ tokenChar c)
      (fun e => quoted e.1 ++ ':' :: e.2.render) (fun e => e.2.floatsAll p = true) ',' '}'
      (by decide) (by decide) (by decide) (fun _ _ => ⟨quoteMark, _, rfl, by decide⟩) fields
      hfields (fun e he => ReadBack.pair (quoted_readBack e.1) (h e he))
    obtain ⟨rfl, hrest⟩ := hread fields' rest rest' (floatsAllFields_iff.mp hk) (stopped_true _)
      (stopped_true _) heq
    exact ⟨rfl, hrest⟩
  | _ => simp [opening, quoteMark] at hopening

mutual

/-- **What is written for a value is read back.** -/
theorem readable (hrepr : ReprFloat p) : ∀ {j : Json}, j.floatsAll p = true → Readable p j
  | .arr _, hj => readable_arr hrepr (floatsAllItems_iff.mp hj) (readable_items hrepr hj)
  | .obj _, hj => readable_obj hrepr (floatsAllFields_iff.mp hj) (readable_fields hrepr hj)
  | .str s, _ => readable_str hrepr s
  | .null, hj => readable_token hrepr rfl hj
  | .bool _, hj => readable_token hrepr rfl hj
  | .int _, hj => readable_token hrepr rfl hj
  | .float _, hj => readable_token hrepr rfl hj

theorem readable_items (hrepr : ReprFloat p) : ∀ {items : List Json},
    floatsAllItems p items = true → ∀ j ∈ items, Readable p j
  | [], _, _, hmem => absurd hmem (by simp)
  | j :: js, h, _, hmem => by
    rw [floatsAllItems, Bool.and_eq_true] at h
    rcases List.mem_cons.mp hmem with heq | hmem
    · exact heq ▸ readable hrepr h.1
    · exact readable_items hrepr h.2 _ hmem

theorem readable_fields (hrepr : ReprFloat p) : ∀ {fields : List (String × Json)},
    floatsAllFields p fields = true → ∀ e ∈ fields, Readable p e.2
  | [], _, _, hmem => absurd hmem (by simp)
  | (k, j) :: fields, h, _, hmem => by
    rw [floatsAllFields, Bool.and_eq_true] at h
    rcases List.mem_cons.mp hmem with heq | hmem
    · exact heq ▸ readable hrepr h.1
    · exact readable_fields hrepr h.2 _ hmem

end

end

/-! ## The text determines the value -/

section

variable {p : PyFloat → Bool}

mutual

/-- The sorted value has the floats of the value. -/
theorem floatsAll_sortKeys : ∀ {j : Json}, j.floatsAll p = true → j.sortKeys.floatsAll p = true
  | .arr _, h => floatsAllItems_sortKeys h
  | .obj fields, h => by
    refine floatsAllFields_iff.mpr fun e he => ?_
    exact floatsAllFields_iff.mp (floatsAllFields_sortKeys h) e (Dict.mem_sorted he)
  | .null, h | .bool _, h | .int _, h | .float _, h | .str _, h => h

theorem floatsAllItems_sortKeys : ∀ {items : List Json}, floatsAllItems p items = true →
    floatsAllItems p (sortKeysItems items) = true
  | [], _ => rfl
  | j :: js, h => by
    rw [floatsAllItems, Bool.and_eq_true] at h
    rw [sortKeysItems, floatsAllItems, floatsAll_sortKeys h.1, floatsAllItems_sortKeys h.2]
    rfl

theorem floatsAllFields_sortKeys : ∀ {fields : List (String × Json)},
    floatsAllFields p fields = true → floatsAllFields p (sortKeysFields fields) = true
  | [], _ => rfl
  | (k, j) :: fields, h => by
    rw [floatsAllFields, Bool.and_eq_true] at h
    rw [sortKeysFields, floatsAllFields, floatsAll_sortKeys h.1, floatsAllFields_sortKeys h.2]
    rfl

end

/-- **Two values have the same text exactly when they are the same up to the order of keys.** -/
theorem dumps_eq_dumps_iff [Interpreter] (hrepr : ReprFloat p) {a b : Json}
    (ha : a.floatsAll p = true) (hb : b.floatsAll p = true) : dumps a = dumps b ↔ Same a b := by
  refine ⟨fun h => ?_, fun h => congrArg (fun j : Json => String.ofList j.render) h⟩
  have htext : a.sortKeys.render = b.sortKeys.render := by
    rw [← String.toList_ofList (l := a.sortKeys.render),
      ← String.toList_ofList (l := b.sortKeys.render)]
    exact congrArg String.toList h
  exact (readable hrepr (floatsAll_sortKeys ha)).eq_of_eq (floatsAll_sortKeys hb) htext

end

end Json

end AgentProof
