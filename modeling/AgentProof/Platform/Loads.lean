import AgentProof.Platform.Dumps
import AgentProof.Python.Text

/-!
# Platform/Loads — `json.loads`, and the styles of `json.dumps`

`Json.write` is `json.dumps` in either of two styles: on one line, or indented by two.  `loads` is
the reader: it skips white space between the tokens, and where an object repeats a key the last
value wins.
-/

open Machinery

namespace AgentProof

/-! ## Writing in a style -/

/-- The white space between the tokens. -/
def isBlank (c : Char) : Bool := c = ' ' || c = '\t' || c = '\n' || c = '\x0d'

/-- The white space of a style of `json.dumps`, by depth. -/
structure Style where
  /-- inside the brackets of a structure that is not empty -/
  lead : ℕ → List Char
  /-- behind the comma -/
  gap : ℕ → List Char
  lead_blank : ∀ depth, ∀ c ∈ lead depth, isBlank c = true
  gap_blank : ∀ depth, ∀ c ∈ gap depth, isBlank c = true

/-- `json.dumps(…)` -/
def inLine : Style where
  lead _ := []
  gap _ := [' ']
  lead_blank := by simp
  gap_blank := by simp [isBlank]

/-- `json.dumps(…, indent=2)` -/
def indented : Style where
  lead depth := '\n' :: List.replicate (2 * depth) ' '
  gap depth := '\n' :: List.replicate (2 * depth) ' '
  lead_blank := by simp +contextual [isBlank]
  gap_blank := by simp +contextual [isBlank]

namespace Json

variable [Interpreter]

mutual

/-- The text of a value at a depth, its keys in the order they have. -/
def write (style : Style) (depth : ℕ) : Json → List Char
  | .null => "null".toList
  | .bool b => if b then "true".toList else "false".toList
  | .int n => (toString n).toList
  | .float x => (Interpreter.reprFloat x).toList
  | .str s => quoted s
  | .arr [] => ['[', ']']
  | .arr (j :: js) =>
    '[' :: (style.lead (depth + 1) ++ (write style (depth + 1) j ++
      writeItems style (depth + 1) js (style.lead depth ++ [']'])))
  | .obj [] => ['\x7b', '\x7d']
  | .obj ((k, j) :: fields) =>
    '\x7b' :: (style.lead (depth + 1) ++ (quoted k ++ ':' :: ' ' :: (write style (depth + 1) j ++
      writeFields style (depth + 1) fields (style.lead depth ++ ['\x7d']))))

/-- The further items, and what closes the list. -/
def writeItems (style : Style) (depth : ℕ) : List Json → List Char → List Char
  | [], close => close
  | j :: js, close =>
    ',' :: (style.gap depth ++ (write style depth j ++ writeItems style depth js close))

/-- The further fields, and what closes the object. -/
def writeFields (style : Style) (depth : ℕ) : List (String × Json) → List Char → List Char
  | [], close => close
  | (k, j) :: fields, close =>
    ',' :: (style.gap depth ++ (quoted k ++ ':' :: ' ' :: (write style depth j ++
      writeFields style depth fields close)))

end

/-- `json.dumps(j, sort_keys=True)` in a style -/
def dumpsWith (style : Style) (j : Json) : String := String.ofList (j.sortKeys.write style 0)

end Json

/-! ## Reading strings -/

/-- The value of a hexadecimal digit. -/
def hexValue? (c : Char) : Option ℕ :=
  if 48 ≤ c.toNat ∧ c.toNat ≤ 57 then some (c.toNat - 48)
  else if 97 ≤ c.toNat ∧ c.toNat ≤ 102 then some (c.toNat - 87)
  else if 65 ≤ c.toNat ∧ c.toNat ≤ 70 then some (c.toNat - 55)
  else none

/-- `_decode_uXXXX` -/
def hex4? (a b c d : Char) : Option ℕ := do
  return ((← hexValue? a) * 16 + (← hexValue? b)) * 256 + ((← hexValue? c) * 16 + (← hexValue? d))

/-- `BACKSLASH` -/
def unescapeDct : Dict Char Char :=
  [(quoteMark, quoteMark), (backslash, backslash), ('/', '/'), ('b', '\x08'), ('f', '\x0c'),
    ('n', '\x0a'), ('r', '\x0d'), ('t', '\x09')]

/-- What a backslash escapes, and what follows: the two escapes of a surrogate pair are one character.
A lone surrogate is no character, and a text that escapes one is not read. -/
def scanEscape : List Char → Option (Char × List Char)
  | 'u' :: a :: b :: c :: d :: rest =>
    (hex4? a b c d).bind fun unit =>
      if 0xD800 ≤ unit ∧ unit ≤ 0xDBFF then
        match rest with
        | '\x5c' :: 'u' :: a :: b :: c :: d :: rest =>
          (hex4? a b c d).bind fun low =>
            if 0xDC00 ≤ low ∧ low ≤ 0xDFFF then
              some (Char.ofNat (0x10000 + (unit - 0xD800) * 0x400 + (low - 0xDC00)), rest)
            else none
        | _ => none
      else if 0xDC00 ≤ unit ∧ unit ≤ 0xDFFF then none
      else some (Char.ofNat unit, rest)
  | x :: rest => (Dict.get? unescapeDct x).map fun c => (c, rest)
  | [] => none

/-- `py_scanstring`: the characters up to the closing quotation mark, and what follows it.  Every
call reads at least one character. -/
def scanString : ℕ → List Char → Option (List Char × List Char)
  | 0, _ | _, [] => none
  | fuel + 1, c :: rest =>
    if c = quoteMark then some ([], rest)
    else if c = backslash then
      (scanEscape rest).bind fun x => (scanString fuel x.2).map (Prod.map (x.1 :: ·) id)
    else if c < ' ' then none
    else (scanString fuel rest).map (Prod.map (c :: ·) id)

/-! ## Reading numbers -/

/-- `0|[1-9][0-9]*` -/
def scanInteger : List Char → Option (List Char × List Char)
  | [] => none
  | c :: rest =>
    if c = '0' then some ([c], rest)
    else if c.isDigit then some (c :: rest.takeWhile Char.isDigit, rest.dropWhile Char.isDigit)
    else none

/-- `(\.[0-9]+)?`, the digits -/
def scanFraction : List Char → List Char × List Char
  | '.' :: d :: rest =>
    if d.isDigit then (d :: rest.takeWhile Char.isDigit, rest.dropWhile Char.isDigit)
    else ([], '.' :: d :: rest)
  | rest => ([], rest)

/-- A sign: whether it is a minus, and what follows. -/
def scanSign : List Char → Bool × List Char
  | '-' :: rest => (true, rest)
  | '+' :: rest => (false, rest)
  | rest => (false, rest)

/-- `([eE][-+]?[0-9]+)?`, the exponent -/
def scanExponent : List Char → Option ℤ × List Char
  | e :: rest =>
    let negative := (scanSign rest).1
    let digits := (scanSign rest).2.takeWhile Char.isDigit
    if (e = 'e' ∨ e = 'E') ∧ digits ≠ [] then
      let magnitude : ℤ := Nat.ofDigitChars 10 digits 0
      (some (if negative then -magnitude else magnitude), (scanSign rest).2.dropWhile Char.isDigit)
    else (none, e :: rest)
  | [] => (none, [])

/-- The float of a sign and a magnitude.  A magnitude beyond the floats is infinite, which is no
JSON value. -/
def signedFloat (negative : Bool) (magnitude : ℚ) : Option PyFloat :=
  let x := (PyFloat.nearest magnitude).value
  if 2 ^ 1024 ≤ x then none
  else if negative then some (if x = 0 then .negZero else .fin (-x))
  else some (.fin x)

/-- The number of a sign and its parts: an integer, or a float if there is a fraction or an
exponent. -/
def numberValue (negative : Bool) (whole fraction : List Char) (exponent : Option ℤ) :
    Option Json :=
  if fraction = [] ∧ exponent = none then
    let n : ℤ := Nat.ofDigitChars 10 whole 0
    some (.int (if negative then -n else n))
  else
    let digits := Nat.ofDigitChars 10 (whole ++ fraction) 0
    (signedFloat negative (digits * (10 : ℚ) ^ (exponent.getD 0 - fraction.length))).map .float

/-- A minus skipped. -/
def unsigned (text : List Char) : List Char :=
  if text.head? = some '-' then text.tail else text

/-- `_match_number` -/
def scanNumber (text : List Char) : Option (Json × List Char) :=
  (scanInteger (unsigned text)).bind fun whole =>
    let fraction := scanFraction whole.2
    let exponent := scanExponent fraction.2
    (numberValue (text.head? = some '-') whole.1 fraction.1 exponent.1).map
      fun j => (j, exponent.2)

/-- A literal or a number.  `NaN` and the infinities, which `json` reads too, are no JSON values. -/
def scanToken : List Char → Option (Json × List Char)
  | 'n' :: 'u' :: 'l' :: 'l' :: rest => some (.null, rest)
  | 't' :: 'r' :: 'u' :: 'e' :: rest => some (.bool true, rest)
  | 'f' :: 'a' :: 'l' :: 's' :: 'e' :: rest => some (.bool false, rest)
  | text => scanNumber text

/-! ## Reading values -/

/-- White space skipped. -/
def skipBlank (text : List Char) : List Char := text.dropWhile isBlank

mutual

/-- `scan_once`.  Every call reads at least one character, so as much fuel as there is text is
enough. -/
def scanValue : ℕ → List Char → Option (Json × List Char)
  | 0, _ | _, [] => none
  | fuel + 1, c :: rest =>
    if c = quoteMark then
      (scanString rest.length rest).map fun x => (.str (String.ofList x.1), x.2)
    else if c = '[' then
      if (skipBlank rest).head? = some ']' then some (.arr [], (skipBlank rest).tail)
      else (scanItems fuel (skipBlank rest)).map (Prod.map .arr id)
    else if c = '\x7b' then
      if (skipBlank rest).head? = some '\x7d' then some (.obj [], (skipBlank rest).tail)
      else (scanFields fuel [] (skipBlank rest)).map (Prod.map .obj id)
    else scanToken (c :: rest)

/-- `JSONArray`, behind the bracket -/
def scanItems : ℕ → List Char → Option (List Json × List Char)
  | 0, _ => none
  | fuel + 1, text =>
    (scanValue fuel text).bind fun x =>
      match skipBlank x.2 with
      | ',' :: rest => (scanItems fuel (skipBlank rest)).map (Prod.map (x.1 :: ·) id)
      | ']' :: rest => some ([x.1], rest)
      | _ => none

/-- `JSONObject`, behind the brace -/
def scanFields : ℕ → Dict String Json → List Char → Option (Dict String Json × List Char)
  | 0, _, _ | _, _, [] => none
  | fuel + 1, fields, c :: rest =>
    if c = quoteMark then
      (scanString rest.length rest).bind fun key =>
        match skipBlank key.2 with
        | ':' :: rest =>
          (scanValue fuel (skipBlank rest)).bind fun x =>
            let fields := Dict.set fields (String.ofList key.1) x.1
            match skipBlank x.2 with
            | ',' :: rest => scanFields fuel fields (skipBlank rest)
            | '\x7d' :: rest => some (fields, rest)
            | _ => none
        | _ => none
    else none

end

/-- `json.loads(text)`, if the text is JSON -/
def loads (text : String) : Option Json :=
  (scanValue text.length (skipBlank text.toList)).bind fun x =>
    if skipBlank x.2 = [] then some x.1 else none

end AgentProof
