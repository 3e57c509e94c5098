import AgentProof.Platform.Loads

/-!
# Platform/ReadBack — `json.loads` inverts `json.dumps`

**What is written is read back** (`loads_write`), whatever the style, if no object repeats a key and
every float is read back from its `repr`.  So a text written with sorted keys determines its value
up to the order of the keys (`loads_dumpsWith`).
-/

open Machinery

namespace AgentProof

/-! ## White space between the tokens -/

/-- White space before a character that is none. -/
theorem skipBlank_append (blank : List Char) (hblank : ∀ c ∈ blank, isBlank c = true) {c : Char}
    (hc : isBlank c = false) (rest : List Char) :
    skipBlank (blank ++ c :: rest) = c :: rest := by
  rw [skipBlank, List.dropWhile_append_of_pos hblank, List.dropWhile_cons_of_neg]
  rw [hc]
  exact Bool.false_ne_true

theorem skipBlank_cons {c : Char} (hc : isBlank c = false) (rest : List Char) :
    skipBlank (c :: rest) = c :: rest :=
  skipBlank_append [] (by simp) hc rest

/-! ## Strings are read back -/

theorem hexValue?_digitChar {n : ℕ} (hn : n < 16) : hexValue? n.digitChar = some n := by
  have hall : ∀ n < 16, hexValue? (Nat.digitChar n) = some n := by decide
  exact hall n hn

theorem hex4?_hex4 {n : ℕ} (hn : n < 0x10000) {a b c d : Char} (h : hex4 n = [a, b, c, d]) :
    hex4? a b c d = some n := by
  simp only [hex4, List.cons.injEq, and_true] at h
  obtain ⟨rfl, rfl, rfl, rfl⟩ := h
  rw [hex4?, hexValue?_digitChar (by omega), hexValue?_digitChar (by omega),
    hexValue?_digitChar (by omega), hexValue?_digitChar (by omega)]
  simp only [Option.bind_eq_bind, Option.bind_some, Option.pure_def, Option.some.injEq]
  omega

theorem scanEscape_of_ne {x : Char} (hx : x ≠ 'u') (rest : List Char) :
    scanEscape (x :: rest) = (Dict.get? unescapeDct x).map fun c => (c, rest) := by
  unfold scanEscape
  split
  · next h => exact absurd (List.cons.inj h).1 hx
  · next h => rw [(List.cons.inj h).1, (List.cons.inj h).2]
  · next h => cases h

/-- The escape of a code unit that is no surrogate. -/
theorem scanEscape_hex4 {n : ℕ} (hn : n < 0xD800 ∨ 0xDFFF < n ∧ n < 0x10000) (rest : List Char) :
    scanEscape ('u' :: hex4 n ++ rest) = some (Char.ofNat n, rest) := by
  change (hex4? _ _ _ _).bind _ = _
  rw [hex4?_hex4 (by omega) rfl, Option.bind_some, if_neg (by omega), if_neg (by omega)]
  rfl

/-- The escapes of a surrogate pair. -/
theorem scanEscape_pair {n : ℕ} (hn : 0x10000 ≤ n ∧ n < 0x110000) (rest : List Char) :
    scanEscape ('u' :: hex4 (0xD800 + (n - 0x10000) / 0x400) ++
        (backslash :: 'u' :: hex4 (0xDC00 + (n - 0x10000) % 0x400) ++ rest)) =
      some (Char.ofNat n, rest) := by
  change (hex4? _ _ _ _).bind _ = _
  rw [hex4?_hex4 (by omega) rfl, Option.bind_some, if_pos (by omega)]
  change (hex4? _ _ _ _).bind _ = _
  rw [hex4?_hex4 (by omega) rfl, Option.bind_some, if_pos (by omega)]
  have hcode : 0x10000 + (0xD800 + (n - 0x10000) / 0x400 - 0xD800) * 0x400 +
      (0xDC00 + (n - 0x10000) % 0x400 - 0xDC00) = n := by omega
  rw [hcode]
  rfl

/-- **What is written for a character is read as that character.** -/
theorem scanString_escape (fuel : ℕ) (c : Char) (rest : List Char) :
    scanString (fuel + 1) (escape c ++ rest) =
      (scanString fuel rest).map (Prod.map (c :: ·) id) := by
  have hslash : ∀ (text : List Char) {x : Char}, scanEscape (text ++ rest) = some (x, rest) →
      scanString (fuel + 1) (backslash :: text ++ rest) =
        (scanString fuel rest).map (Prod.map (x :: ·) id) := by
    intro text x h
    rw [List.cons_append, scanString, if_neg (by decide), if_pos rfl, h]
    rfl
  rw [escape]
  cases hc : Dict.get? escapeDct c with
  | some x =>
    refine hslash [x] ?_
    have hall : ∀ e ∈ escapeDct, e.2 ≠ 'u' ∧ Dict.get? unescapeDct e.2 = some e.1 := by decide
    obtain ⟨hu, hback⟩ := hall _ (Dict.mem_of_get?_eq_some hc)
    rw [List.singleton_append, scanEscape_of_ne hu, hback]
    rfl
  | none =>
    obtain ⟨hback, hquote⟩ := ne_of_escapeDct hc
    dsimp only
    split_ifs with hplain
    · rw [List.singleton_append, scanString, if_neg hquote, if_neg hback, if_neg]
      exact not_lt.mpr hplain.1
    · have hvalid := toNat_valid c
      rw [utf16]
      split_ifs with hbasic
      · rw [List.flatMap_singleton]
        refine hslash ('u' :: hex4 c.toNat) ?_
        rw [scanEscape_hex4 (by omega), Char.ofNat_toNat]
      · simp only [List.flatMap_cons, List.flatMap_nil, List.append_nil]
        refine hslash ('u' :: hex4 _ ++ backslash :: 'u' :: hex4 _) ?_
        rw [List.append_assoc, scanEscape_pair (by omega), Char.ofNat_toNat]

theorem scanString_quoted {fuel : ℕ} {text : List Char} (hfuel : text.length < fuel)
    (rest : List Char) :
    scanString fuel (text.flatMap escape ++ quoteMark :: rest) = some (text, rest) := by
  induction text generalizing fuel with
  | nil =>
    obtain ⟨fuel, rfl⟩ := Nat.exists_eq_succ_of_ne_zero hfuel.ne'
    rfl
  | cons c text ih =>
    obtain ⟨fuel, rfl⟩ := Nat.exists_eq_succ_of_ne_zero (Nat.ne_zero_of_lt hfuel)
    rw [List.flatMap_cons, List.append_assoc, scanString_escape,
      ih (Nat.lt_of_succ_lt_succ hfuel)]
    rfl

/-! ## Numbers are read back -/

/-- What begins no longer token. -/
abbrev AtEnd (rest : List Char) : Prop := Stopped (fun c => ¬ tokenChar c) rest

/-- Where the letters of a class end, they end with more text behind too. -/
theorem takeWhile_append_of_stopped {p : Char → Bool} (hp : ∀ c, p c = true → tokenChar c)
    {rest : List Char} (hrest : AtEnd rest) (text : List Char) :
    (text ++ rest).takeWhile p = text.takeWhile p ∧
      (text ++ rest).dropWhile p = text.dropWhile p ++ rest := by
  induction text with
  | nil =>
    cases rest with
    | nil => exact ⟨rfl, rfl⟩
    | cons c rest =>
      have hc : ¬ p c = true := fun h => stopped_cons.mp hrest (hp c h)
      simp [hc]
  | cons c text ih =>
    by_cases hc : p c = true
    · simp [hc, ih]
    · simp [hc]

theorem tokenChar_of_isDigit (c : Char) (hc : c.isDigit = true) : tokenChar c :=
  .inl (by simp [Char.isAlphanum, hc])

theorem scanInteger_append {text : List Char} {x : List Char × List Char}
    (h : scanInteger text = some x) {rest : List Char} (hrest : AtEnd rest) :
    scanInteger (text ++ rest) = some (x.1, x.2 ++ rest) := by
  cases text with
  | nil => cases h
  | cons c text =>
    obtain ⟨htake, hdrop⟩ := takeWhile_append_of_stopped tokenChar_of_isDigit hrest text
    rw [scanInteger] at h
    rw [List.cons_append, scanInteger, htake, hdrop]
    split_ifs at h ⊢ <;> (cases h; rfl)

theorem scanFraction_of_ne {text : List Char} (h : ∀ c ∈ text.head?, c ≠ '.') :
    scanFraction text = ([], text) := by
  unfold scanFraction
  split
  · exact absurd rfl (h '.' rfl)
  · rfl

theorem scanFraction_append {rest : List Char} (hrest : AtEnd rest) (text : List Char) :
    scanFraction (text ++ rest) = ((scanFraction text).1, (scanFraction text).2 ++ rest) := by
  by_cases hpoint : text.head? = some '.'
  · obtain ⟨tail, rfl⟩ : ∃ tail, text = '.' :: tail := by
      cases text with
      | nil => cases hpoint
      | cons c tail => exact ⟨tail, by rw [Option.some.inj hpoint]⟩
    cases tail with
    | nil =>
      cases rest with
      | nil => rfl
      | cons d rest =>
        have hd : ¬ d.isDigit = true := fun h => stopped_cons.mp hrest (tokenChar_of_isDigit d h)
        exact if_neg hd
    | cons d tail =>
      obtain ⟨htake, hdrop⟩ := takeWhile_append_of_stopped tokenChar_of_isDigit hrest tail
      rw [List.cons_append, List.cons_append, scanFraction, scanFraction, htake, hdrop]
      split_ifs <;> rfl
  · have htext : ∀ c ∈ text.head?, c ≠ '.' := by
      rintro c hc rfl
      exact hpoint hc
    have hboth : ∀ c ∈ (text ++ rest).head?, c ≠ '.' := by
      intro c hc
      cases text with
      | nil =>
        rintro rfl
        exact hrest '.' hc (by decide)
      | cons d text => exact htext c hc
    rw [scanFraction_of_ne htext, scanFraction_of_ne hboth]

theorem scanSign_append {rest : List Char} (hrest : AtEnd rest) (text : List Char) :
    scanSign (text ++ rest) = ((scanSign text).1, (scanSign text).2 ++ rest) := by
  have hplain : ∀ {text : List Char}, (∀ c ∈ text.head?, c ≠ '-' ∧ c ≠ '+') →
      scanSign text = (false, text) := by
    intro text h
    unfold scanSign
    split
    · exact absurd rfl (h '-' rfl).1
    · exact absurd rfl (h '+' rfl).2
    · rfl
  cases text with
  | nil =>
    refine hplain fun c hc => ⟨?_, ?_⟩ <;>
    · rintro rfl
      exact hrest _ hc (by decide)
  | cons c text =>
    by_cases hminus : c = '-'
    · rw [hminus]
      rfl
    · by_cases hplus : c = '+'
      · rw [hplus]
        rfl
      · have hc : ∀ tail : List Char, scanSign (c :: tail) = (false, c :: tail) := fun tail => by
          refine hplain fun d hd => ?_
          obtain rfl : c = d := Option.some.inj hd
          exact ⟨hminus, hplus⟩
        rw [hc, List.cons_append, hc]

theorem scanExponent_append {rest : List Char} (hrest : AtEnd rest) (text : List Char) :
    scanExponent (text ++ rest) = ((scanExponent text).1, (scanExponent text).2 ++ rest) := by
  cases text with
  | nil =>
    cases rest with
    | nil => rfl
    | cons c rest =>
      have hc : ¬ (c = 'e' ∨ c = 'E') := by
        rintro (rfl | rfl) <;> exact stopped_cons.mp hrest (by decide)
      exact if_neg fun h => hc h.1
  | cons e text =>
    obtain ⟨htake, hdrop⟩ :=
      takeWhile_append_of_stopped tokenChar_of_isDigit hrest (scanSign text).2
    rw [List.cons_append, scanExponent, scanExponent, scanSign_append hrest]
    dsimp only
    rw [htake, hdrop]
    split_ifs <;> rfl

/-- A number ends where its characters end. -/
theorem scanNumber_append {text : List Char} {x : Json × List Char}
    (h : scanNumber text = some x) {rest : List Char} (hrest : AtEnd rest) :
    scanNumber (text ++ rest) = some (x.1, x.2 ++ rest) := by
  cases text with
  | nil => cases h
  | cons c text =>
    obtain ⟨whole, hwhole, h⟩ := Option.bind_eq_some_iff.mp h
    obtain ⟨j, hj, rfl⟩ := Option.map_eq_some_iff.mp h
    have hunsigned : unsigned (c :: text ++ rest) = unsigned (c :: text) ++ rest := by
      unfold unsigned
      rw [apply_ite (· ++ rest)]
      rfl
    have hwhole' : scanInteger (unsigned (c :: text ++ rest)) = some (whole.1, whole.2 ++ rest) :=
      hunsigned ▸ scanInteger_append hwhole hrest
    rw [scanNumber, hwhole', Option.bind_some, scanFraction_append hrest]
    dsimp only
    rw [scanExponent_append hrest]
    exact Option.map_eq_some_iff.mpr ⟨j, hj, rfl⟩

/-- No decimal begins with a zero but zero's. -/
theorem toDigits_eq_zero_cons {n : ℕ} {tail : List Char} (h : Nat.toDigits 10 n = '0' :: tail) :
    tail = [] := by
  induction n using Nat.strong_induction_on generalizing tail with
  | _ n ih =>
    rw [Nat.toDigits_eq_if (by decide)] at h
    split_ifs at h with hsmall
    · exact (List.cons.inj h).2.symm
    · obtain ⟨c, front, hfront⟩ :=
        List.exists_cons_of_ne_nil (Nat.toDigits_ne_nil (b := 10) (n := n / 10))
      rw [hfront, List.cons_append] at h
      rw [(List.cons.inj h).1] at hfront
      rw [ih (n / 10) (by omega) hfront, ← Nat.toDigits_zero 10] at hfront
      exact absurd (toDigits_inj hfront) (by omega)

theorem scanInteger_toDigits (n : ℕ) :
    scanInteger (Nat.toDigits 10 n) = some (Nat.toDigits 10 n, []) := by
  obtain ⟨c, tail, hdigits⟩ := List.exists_cons_of_ne_nil (Nat.toDigits_ne_nil (b := 10) (n := n))
  have hall : ∀ d ∈ c :: tail, d.isDigit = true := fun d hd =>
    isDigit_of_mem_toDigits (hdigits ▸ hd)
  have htail : ∀ d ∈ tail, d.isDigit = true := fun d hd => hall d (.tail _ hd)
  rw [hdigits, scanInteger]
  split_ifs with hzero hc
  · rw [hzero] at hdigits
    rw [toDigits_eq_zero_cons hdigits]
  · rw [List.takeWhile_eq_self_iff.mpr htail, List.dropWhile_eq_nil_iff.mpr htail]
  · exact absurd (hall c (.head _)) hc

/-- **An integer is read back.** -/
theorem scanNumber_int (n : ℤ) : scanNumber (toString n).toList = some (.int n, []) := by
  cases n with
  | ofNat n =>
    have hsign : (Nat.toDigits 10 n).head? ≠ some '-' := by
      intro h
      exact absurd (isDigit_of_mem_toDigits (List.mem_of_mem_head? h)) (by decide)
    rw [toString_ofNat, scanNumber, unsigned, if_neg hsign, scanInteger_toDigits, Option.bind_some]
    simp [scanFraction, scanExponent, numberValue, hsign, Nat.ofDigitChars_ten_toDigits]
  | negSucc n =>
    have hunsigned : unsigned ('-' :: Nat.toDigits 10 (n + 1)) = Nat.toDigits 10 (n + 1) := rfl
    rw [toString_negSucc, scanNumber, hunsigned, scanInteger_toDigits, Option.bind_some]
    simp [scanFraction, scanExponent, numberValue, Nat.ofDigitChars_ten_toDigits, Int.negSucc_eq]

/-! ## Values are read back -/

/-- Every float that passes the test is read back from its `repr`. -/
def FloatsReadBack [Interpreter] (p : PyFloat → Bool) : Prop :=
  ∀ x, p x = true → scanNumber (Interpreter.reprFloat x).toList = some (.float x, [])

/-- Where there is no float, nothing is asked of their `repr`. -/
theorem floatsReadBack_false [Interpreter] : FloatsReadBack fun _ => false :=
  fun _ h => absurd h Bool.false_ne_true

namespace Json

mutual

/-- A value with sorted keys repeats none. -/
theorem distinctKeys_sortKeys : ∀ j : Json, j.sortKeys.distinctKeys = true
  | .arr items => distinctKeysItems_sortKeys items
  | .obj fields => by
    have hsorted := Dict.strictlySorted_sorted (sortKeysFields fields)
    have hnodup : ((Dict.sorted (sortKeysFields fields)).map Prod.fst).Nodup :=
      List.pairwise_map.mpr (hsorted.imp fun h => h.ne)
    have hvalues := distinctKeysFields_iff.mp (distinctKeysFields_sortKeys fields)
    rw [sortKeys, distinctKeys, decide_eq_true hnodup, Bool.true_and]
    exact distinctKeysFields_iff.mpr fun e he => hvalues e (Dict.mem_sorted he)
  | .null | .bool _ | .int _ | .float _ | .str _ => rfl

theorem distinctKeysItems_sortKeys : ∀ items : List Json,
    distinctKeysItems (sortKeysItems items) = true
  | [] => rfl
  | j :: js => by
    rw [sortKeysItems, distinctKeysItems, distinctKeys_sortKeys j, distinctKeysItems_sortKeys js]
    rfl

theorem distinctKeysFields_sortKeys : ∀ fields : List (String × Json),
    distinctKeysFields (sortKeysFields fields) = true
  | [] => rfl
  | (k, j) :: fields => by
    rw [sortKeysFields, distinctKeysFields, distinctKeys_sortKeys j,
      distinctKeysFields_sortKeys fields]
    rfl

end

/-! ### Literals and numbers -/

theorem number_begins {text : List Char} {x : Json × List Char} (h : scanNumber text = some x) :
    ∃ c tail, text = c :: tail ∧ (c = '-' ∨ c.isDigit = true) := by
  obtain ⟨whole, hwhole, -⟩ := Option.bind_eq_some_iff.mp h
  cases text with
  | nil => cases hwhole
  | cons c tail =>
    refine ⟨c, tail, rfl, or_iff_not_imp_left.mpr fun hminus => ?_⟩
    have hunsigned : unsigned (c :: tail) = c :: tail := if_neg fun h => hminus (Option.some.inj h)
    rw [hunsigned, scanInteger] at hwhole
    split_ifs at hwhole with hzero hdigit
    · rw [hzero]
      rfl
    · exact hdigit

/-- A number is read up to the end of its characters. -/
theorem scanValue_number {text : List Char} {j : Json} (h : scanNumber text = some (j, []))
    (fuel : ℕ) {rest : List Char} (hrest : AtEnd rest) :
    scanValue (fuel + 1) (text ++ rest) = some (j, rest) := by
  have hread : scanNumber (text ++ rest) = some (j, rest) := scanNumber_append h hrest
  obtain ⟨c, tail, rfl, hc⟩ := number_begins h
  have hne : ∀ d : Char, d ≠ '-' → d.isDigit = false → c ≠ d := by
    rintro d hminus hdigit rfl
    rcases hc with hc | hc
    · exact hminus hc
    · rw [hdigit] at hc
      exact absurd hc Bool.false_ne_true
  rw [List.cons_append] at hread ⊢
  rw [scanValue, if_neg (hne _ (by decide) (by decide)), if_neg (hne _ (by decide) (by decide)),
    if_neg (hne _ (by decide) (by decide)), ← hread]
  unfold scanToken
  split
  · next h => exact absurd (List.cons.inj h).1 (hne _ (by decide) (by decide))
  · next h => exact absurd (List.cons.inj h).1 (hne _ (by decide) (by decide))
  · next h => exact absurd (List.cons.inj h).1 (hne _ (by decide) (by decide))
  · rfl

/-! ### Structures -/

/-- A quoted key or string is read up to its closing quotation mark. -/
theorem scanString_key (s : String) (rest : List Char) :
    scanString (s.toList.flatMap escape ++ quoteMark :: rest).length
        (s.toList.flatMap escape ++ quoteMark :: rest) = some (s.toList, rest) := by
  refine scanString_quoted ?_ rest
  have hescape : s.toList.length ≤ (s.toList.flatMap escape).length := by
    induction s.toList with
    | nil => exact Nat.zero_le _
    | cons c text ih =>
      obtain ⟨d, tail, hc, -⟩ := escape_begins c
      rw [List.flatMap_cons, hc]
      simp only [List.length_cons, List.length_append]
      omega
  simp only [List.length_append, List.length_cons]
  omega

section

variable [Interpreter] {p : PyFloat → Bool} (style : Style)

theorem write_begins (hrepr : FloatsReadBack p) (depth : ℕ) {j : Json}
    (hj : j.floatsAll p = true) :
    ∃ c tail, write style depth j = c :: tail ∧ isBlank c = false ∧ c ≠ ']' := by
  have hnumber : ∀ {text : List Char} {x : Json × List Char}, scanNumber text = some x →
      ∃ c tail, text = c :: tail ∧ isBlank c = false ∧ c ≠ ']' := by
    intro text x h
    obtain ⟨c, tail, htext, hc⟩ := number_begins h
    refine ⟨c, tail, htext, ?_, ?_⟩
    · rcases hc with rfl | hc
      · decide
      · simp only [isBlank, Bool.or_eq_false_iff, decide_eq_false_iff_not]
        refine ⟨⟨⟨?_, ?_⟩, ?_⟩, ?_⟩ <;> (rintro rfl; exact absurd hc (by decide))
    · rintro rfl
      exact absurd hc (by decide)
  match j with
  | .null => exact ⟨_, _, rfl, by decide, by decide⟩
  | .bool true => exact ⟨_, _, rfl, by decide, by decide⟩
  | .bool false => exact ⟨_, _, rfl, by decide, by decide⟩
  | .int n => exact hnumber (scanNumber_int n)
  | .float x => exact hnumber (hrepr x hj)
  | .str s => exact ⟨quoteMark, _, rfl, by decide, by decide⟩
  | .arr [] | .arr (_ :: _) | .obj [] | .obj (_ :: _) =>
    exact ⟨_, _, rfl, by decide, by decide⟩

omit [Interpreter] in
theorem atEnd_blank {blank : List Char} (hblank : ∀ c ∈ blank, isBlank c = true) {c : Char}
    (hc : ¬ tokenChar c) (rest : List Char) : AtEnd (blank ++ c :: rest) := by
  cases blank with
  | nil => exact stopped_cons.mpr hc
  | cons d blank =>
    refine stopped_cons.mpr ?_
    have hd := hblank d (.head _)
    simp only [isBlank, Bool.or_eq_true, decide_eq_true_eq] at hd
    rcases hd with ((rfl | rfl) | rfl) | rfl <;> decide

theorem writeItems_append (depth : ℕ) (close rest : List Char) : ∀ items : List Json,
    writeItems style depth items close ++ rest = writeItems style depth items (close ++ rest)
  | [] => rfl
  | j :: js => by
    simp only [writeItems, List.cons_append, List.append_assoc, writeItems_append depth close rest js]

theorem writeFields_append (depth : ℕ) (close rest : List Char) : ∀ fields : List (String × Json),
    writeFields style depth fields close ++ rest = writeFields style depth fields (close ++ rest)
  | [] => rfl
  | (k, j) :: fields => by
    simp only [writeFields, List.cons_append, List.append_assoc,
      writeFields_append depth close rest fields]

theorem length_writeItems (depth : ℕ) (items : List Json) (close : List Char) :
    (writeItems style depth items close).length =
      (writeItems style depth items []).length + close.length := by
  rw [← List.length_append, writeItems_append, List.nil_append]

theorem length_writeFields (depth : ℕ) (fields : List (String × Json)) (close : List Char) :
    (writeFields style depth fields close).length =
      (writeFields style depth fields []).length + close.length := by
  rw [← List.length_append, writeFields_append, List.nil_append]

/-- White space before a value. -/
theorem skipBlank_write (hrepr : FloatsReadBack p) (blank : List Char)
    (hblank : ∀ c ∈ blank, isBlank c = true) (depth : ℕ) {j : Json} (hj : j.floatsAll p = true)
    (rest : List Char) :
    skipBlank (blank ++ (write style depth j ++ rest)) = write style depth j ++ rest := by
  obtain ⟨c, tail, hwrite, hc, -⟩ := write_begins style hrepr depth hj
  rw [hwrite, List.cons_append]
  exact skipBlank_append blank hblank hc _

/-- One field of an object, whose key is new, with another or the closing brace behind it. -/
theorem scanFields_field (hrepr : FloatsReadBack p) {k : String} {j : Json}
    (hj : j.floatsAll p = true) {acc : Dict String Json} {fields : List (String × Json)}
    (hnodup : ((acc ++ (k, j) :: fields).map Prod.fst).Nodup) {fuel depth : ℕ}
    {rest tail : List Char}
    (hread : scanValue fuel (write style depth j ++ rest) = some (j, tail)) (more : List Char) :
    (skipBlank tail = ',' :: more →
      scanFields (fuel + 1) acc (quoted k ++ ':' :: ' ' :: (write style depth j ++ rest)) =
        scanFields fuel (acc ++ [(k, j)]) (skipBlank more)) ∧
    (skipBlank tail = '\x7d' :: more →
      scanFields (fuel + 1) acc (quoted k ++ ':' :: ' ' :: (write style depth j ++ rest)) =
        some (acc ++ [(k, j)], more)) := by
  have hnew : Dict.get? acc k = none := by
    refine Dict.get?_eq_none_iff.mpr fun hmem => ?_
    rw [List.map_append, List.map_cons] at hnodup
    exact (List.nodup_append.mp hnodup).2.2 k hmem k (.head _) rfl
  have hblank : skipBlank (' ' :: (write style depth j ++ rest)) = write style depth j ++ rest :=
    skipBlank_write style hrepr [' '] (by simp [isBlank]) depth hj rest
  rw [quoted, List.cons_append, List.append_assoc, List.singleton_append, scanFields, if_pos rfl,
    scanString_key, Option.bind_some, skipBlank_cons (by decide)]
  simp only [hblank, String.ofList_toList, Dict.set_of_get?_eq_none hnew, hread, Option.bind_some]
  constructor <;> intro htail <;> rw [htail] <;> rfl

mutual

/-- **What is written for a value is read as that value.**  The fuel counts its characters. -/
theorem scanValue_write (hrepr : FloatsReadBack p) : ∀ {j : Json}, j.floatsAll p = true →
    j.distinctKeys = true → ∀ {fuel depth : ℕ}, (write style depth j).length ≤ fuel →
      ∀ {rest : List Char}, AtEnd rest →
        scanValue fuel (write style depth j ++ rest) = some (j, rest)
  | .null, _, _, fuel + 1, _, _, _, _ => rfl
  | .bool true, _, _, fuel + 1, _, _, _, _ => rfl
  | .bool false, _, _, fuel + 1, _, _, _, _ => rfl
  | .int n, _, _, fuel + 1, _, _, _, hrest => scanValue_number (scanNumber_int n) fuel hrest
  | .float x, hx, _, fuel + 1, _, _, _, hrest => scanValue_number (hrepr x hx) fuel hrest
  | .str s, _, _, fuel + 1, _, _, rest, _ => by
    rw [write, quoted, List.cons_append, List.append_assoc, scanValue, if_pos rfl]
    rw [List.singleton_append, scanString_key, Option.map_some, String.ofList_toList]
  | .arr [], _, _, fuel + 1, _, _, _, _ => rfl
  | .arr (j :: js), hfloats, hkeys, fuel + 1, depth, hfuel, rest, hrest => by
    rw [floatsAll, floatsAllItems, Bool.and_eq_true] at hfloats
    rw [distinctKeys, distinctKeysItems, Bool.and_eq_true] at hkeys
    obtain ⟨c, tail, hwrite, -, hc⟩ := write_begins style hrepr (depth + 1) hfloats.1
    rw [write, List.length_cons, List.length_append, List.length_append, length_writeItems] at hfuel
    rw [write, List.cons_append, List.append_assoc, List.append_assoc, writeItems_append,
      List.append_assoc, List.singleton_append, scanValue, if_neg (by decide), if_pos rfl,
      skipBlank_write style hrepr _ (style.lead_blank _) _ hfloats.1, if_neg]
    · rw [scanItems_write hrepr hfloats.1 hfloats.2 hkeys.1 hkeys.2 (style.lead_blank _)
        (by simp only [List.length_append, List.length_singleton] at hfuel; omega)]
      rfl
    · rw [hwrite]
      exact fun h => hc (Option.some.inj h)
  | .obj [], _, _, fuel + 1, _, _, _, _ => rfl
  | .obj ((k, j) :: fields), hfloats, hkeys, fuel + 1, depth, hfuel, rest, hrest => by
    rw [floatsAll, floatsAllFields, Bool.and_eq_true] at hfloats
    rw [distinctKeys, Bool.and_eq_true, distinctKeysFields, Bool.and_eq_true] at hkeys
    have hquoted : ∀ tail : List Char, skipBlank (style.lead (depth + 1) ++ (quoted k ++ tail)) =
        quoted k ++ tail := fun tail => skipBlank_append _ (style.lead_blank _) (by decide) _
    rw [write, List.length_cons, List.length_append, List.length_append, List.length_cons,
      List.length_cons, List.length_append, length_writeFields] at hfuel
    rw [write, List.cons_append, List.append_assoc, List.append_assoc, List.cons_append,
      List.cons_append, List.append_assoc, writeFields_append, List.append_assoc,
      List.singleton_append, scanValue, if_neg (by decide), if_neg (by decide), if_pos rfl, hquoted,
      if_neg]
    · rw [scanFields_write hrepr hfloats.1 hfloats.2 hkeys.2.1 hkeys.2.2 (style.lead_blank _)
        (by simpa using hkeys.1)
        (by simp only [List.length_append, List.length_singleton] at hfuel; omega)]
      rfl
    · exact fun h => absurd (Option.some.inj h) (by decide)
  | j, hfloats, _, 0, depth, hfuel, _, _ => by
    obtain ⟨c, tail, hwrite, -, -⟩ := write_begins style hrepr depth hfloats
    rw [hwrite] at hfuel
    exact absurd hfuel (by simp)

/-- The items of a list, up to its closing bracket. -/
theorem scanItems_write (hrepr : FloatsReadBack p) : ∀ {js : List Json} {j : Json},
    j.floatsAll p = true → floatsAllItems p js = true → j.distinctKeys = true →
    distinctKeysItems js = true → ∀ {blank : List Char}, (∀ c ∈ blank, isBlank c = true) →
      ∀ {fuel depth : ℕ},
        (write style depth j).length + (writeItems style depth js []).length < fuel →
        ∀ {rest : List Char},
          scanItems fuel (write style depth j ++ writeItems style depth js (blank ++ ']' :: rest)) =
            some (j :: js, rest)
  | [], j, hfloats, _, hkeys, _, blank, hblank, fuel + 1, depth, hfuel, rest => by
    have hend : AtEnd (blank ++ ']' :: rest) := atEnd_blank hblank (by decide) rest
    rw [writeItems, scanItems, scanValue_write hrepr hfloats hkeys (by omega) hend,
      Option.bind_some, skipBlank_append _ hblank (by decide)]
    rfl
  | j' :: js, j, hfloats, hfloats', hkeys, hkeys', blank, hblank, fuel + 1, depth, hfuel, rest => by
    rw [floatsAllItems, Bool.and_eq_true] at hfloats'
    rw [distinctKeysItems, Bool.and_eq_true] at hkeys'
    simp only [writeItems, List.length_cons, List.length_append] at hfuel
    rw [writeItems, scanItems,
      scanValue_write hrepr hfloats hkeys (by omega) (stopped_cons.mpr (by decide)),
      Option.bind_some, skipBlank_cons (by decide)]
    change (scanItems fuel (skipBlank _)).map _ = _
    rw [skipBlank_write style hrepr _ (style.gap_blank _) _ hfloats'.1,
      scanItems_write hrepr hfloats'.1 hfloats'.2 hkeys'.1 hkeys'.2 hblank (by omega)]
    rfl

/-- The fields of an object, up to its closing brace. -/
theorem scanFields_write (hrepr : FloatsReadBack p) : ∀ {fields : List (String × Json)} {k : String}
    {j : Json}, j.floatsAll p = true → floatsAllFields p fields = true → j.distinctKeys = true →
    distinctKeysFields fields = true → ∀ {blank : List Char}, (∀ c ∈ blank, isBlank c = true) →
      ∀ {acc : Dict String Json}, ((acc ++ (k, j) :: fields).map Prod.fst).Nodup →
      ∀ {fuel depth : ℕ},
        (write style depth j).length + (writeFields style depth fields []).length < fuel →
        ∀ {rest : List Char},
          scanFields fuel acc (quoted k ++ ':' :: ' ' :: (write style depth j ++
              writeFields style depth fields (blank ++ '\x7d' :: rest))) =
            some (acc ++ (k, j) :: fields, rest)
  | [], k, j, hfloats, _, hkeys, _, blank, hblank, acc, hnodup, fuel + 1, depth, hfuel, rest => by
    have hend : AtEnd (blank ++ '\x7d' :: rest) := atEnd_blank hblank (by decide) rest
    rw [writeFields]
    exact (scanFields_field style hrepr hfloats hnodup
      (scanValue_write hrepr hfloats hkeys (by omega) hend) rest).2
      (skipBlank_append _ hblank (by decide) rest)
  | (k', j') :: fields, k, j, hfloats, hfloats', hkeys, hkeys', blank, hblank, acc, hnodup,
      fuel + 1, depth, hfuel, rest => by
    rw [floatsAllFields, Bool.and_eq_true] at hfloats'
    rw [distinctKeysFields, Bool.and_eq_true] at hkeys'
    simp only [writeFields, List.length_cons, List.length_append] at hfuel
    have hquoted : ∀ tail : List Char, skipBlank (style.gap depth ++ (quoted k' ++ tail)) =
        quoted k' ++ tail := fun tail => skipBlank_append _ (style.gap_blank _) (by decide) _
    rw [writeFields, (scanFields_field style hrepr hfloats hnodup
      (scanValue_write hrepr hfloats hkeys (by omega) (stopped_cons.mpr (by decide))) _).1
      (skipBlank_cons (by decide) _), hquoted,
      scanFields_write hrepr hfloats'.1 hfloats'.2 hkeys'.1 hkeys'.2 hblank
      (by simpa using hnodup) (by omega)]
    simp

end

/-- **What is written is read back**, if no object repeats a key. -/
theorem loads_write (hrepr : FloatsReadBack p) {j : Json} (hfloats : j.floatsAll p = true)
    (hkeys : j.distinctKeys = true) :
    loads (String.ofList (write style 0 j)) = some j := by
  have hstart : skipBlank (write style 0 j) = write style 0 j := by
    have h := skipBlank_write style hrepr [] (by simp) 0 hfloats []
    rwa [List.append_nil] at h
  have hfuel : (write style 0 j).length ≤ (write style 0 j).length := le_rfl
  have hread := scanValue_write style hrepr hfloats hkeys hfuel stopped_nil
  rw [List.append_nil] at hread
  rw [loads, String.toList_ofList, hstart, String.length_ofList, hread]
  rfl

/-- **The text of `json.dumps(…, sort_keys=True)` is read as the value with its keys in order.** -/
theorem loads_dumpsWith (hrepr : FloatsReadBack p) {j : Json} (hfloats : j.floatsAll p = true) :
    loads (j.dumpsWith style) = some j.sortKeys :=
  loads_write style hrepr (floatsAll_sortKeys hfloats) (distinctKeys_sortKeys j)

/-- So it determines the value up to the order of the keys. -/
theorem dumpsWith_eq_iff (hrepr : FloatsReadBack p) {a b : Json} (ha : a.floatsAll p = true)
    (hb : b.floatsAll p = true) : a.dumpsWith style = b.dumpsWith style ↔ Same a b := by
  refine ⟨fun h => ?_, fun h => congrArg (fun j : Json => String.ofList (j.write style 0)) h⟩
  have hread := loads_dumpsWith style hrepr ha
  rw [h, loads_dumpsWith style hrepr hb] at hread
  exact (Option.some.inj hread).symm

end

end Json

end AgentProof
