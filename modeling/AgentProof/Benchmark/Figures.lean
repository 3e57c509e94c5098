import AgentProof.Benchmark.Contradictions
import AgentProof.Machinery.Matches

/-!
# Benchmark/Figures — the figure that `inject_conflicting_detail` changes

A dollar amount is a dollar sign, digits, a point and two digits: it has no dollar sign inside, and
no second amount begins where it does.  So the amount that is written in the place of the first
one in the input is the first one in the variant, and it reads back as the cents it was written for
(`injectConflictingDetail_eq`).
-/

open Machinery Machinery.Pattern

namespace AgentProof

variable [UnicodeData]

/-! ## What a dollar amount is -/

/-- A sign, digits, a point, and two digits. -/
theorem dollarAmountPattern_matches_iff {x : List Char} :
    dollarAmountPattern.Matches x ↔ ∃ d digits a b, x = '$' :: d :: (digits ++ ['.', a, b]) ∧
      isDecimal d = true ∧ (∀ c ∈ digits, isDecimal c = true) ∧ isDecimal a = true ∧
      isDecimal b = true := by
  constructor
  · rintro ⟨_, _, rfl, hsign, _, _, rfl, hfirst, digits, _, rfl, hdigits, hcents⟩
    obtain _ | @⟨_, sign, _, _, hsign, ⟨⟩⟩ := hsign
    obtain _ | @⟨_, d, _, _, hd, ⟨⟩⟩ := hfirst
    obtain _ | @⟨_, point, _, _, hpoint, _ | @⟨_, a, _, _, ha, _ | @⟨_, b, _, _, hb, ⟨⟩⟩⟩⟩ := hcents
    obtain rfl : sign = '$' := of_decide_eq_true hsign
    obtain rfl : point = '.' := of_decide_eq_true hpoint
    exact ⟨d, digits, a, b, rfl, hd, hdigits, ha, hb⟩
  · rintro ⟨d, digits, a, b, rfl, hd, hdigits, ha, hb⟩
    refine ⟨['$'], _, rfl, ?_, [d], _, rfl, ?_, digits, _, rfl, hdigits, ?_⟩
    · exact .cons rfl .nil
    · exact .cons hd .nil
    · exact .cons rfl (.cons ha (.cons hb .nil))

section Ascii

variable (hascii : DecimalAscii)
include hascii

/-- An amount has its sign at the beginning and nowhere else. -/
theorem sign_head {x : List Char} (hx : dollarAmountPattern.Matches x) :
    ∃ x', x = '$' :: x' ∧ '$' ∉ x' := by
  obtain ⟨d, digits, a, b, rfl, hd, hdigits, ha, hb⟩ := dollarAmountPattern_matches_iff.mp hx
  have hsign : ∀ c, isDecimal c = true → c ≠ '$' := by
    rintro c hc rfl
    rw [hascii.isDecimal_eq (by decide)] at hc
    exact absurd hc (by decide)
  refine ⟨_, rfl, ?_⟩
  simp only [List.mem_cons, List.mem_append, List.not_mem_nil, or_false, not_or]
  exact ⟨(hsign d hd).symm, fun hmem => hsign _ (hdigits _ hmem) rfl, by decide,
    (hsign a ha).symm, (hsign b hb).symm⟩

/-- **At most one amount begins at a place.** -/
theorem amount_unique {x y u v : List Char} (hx : dollarAmountPattern.Matches x)
    (hy : dollarAmountPattern.Matches y) (h : x ++ u = y ++ v) : x = y := by
  have hpoint : ¬ isDecimal '.' = true := by
    rw [hascii.isDecimal_eq (by decide)]
    decide
  have hdollars : ∀ (digits : List Char) (a b : Char) (rest : List Char),
      (∀ c ∈ digits, isDecimal c = true) →
      ((digits ++ ['.', a, b]) ++ rest).takeWhile isDecimal = digits := by
    intro digits a b rest hdigits
    rw [List.append_assoc, List.takeWhile_append_of_pos hdigits, List.cons_append,
      List.takeWhile_cons_of_neg hpoint, List.append_nil]
  obtain ⟨d, digits, a, b, rfl, -, hdigits, -, -⟩ := dollarAmountPattern_matches_iff.mp hx
  obtain ⟨d', digits', a', b', rfl, -, hdigits', -, -⟩ := dollarAmountPattern_matches_iff.mp hy
  obtain ⟨rfl, hrest⟩ : d = d' ∧
      (digits ++ ['.', a, b]) ++ u = (digits' ++ ['.', a', b']) ++ v :=
    List.cons.inj (List.cons.inj h).2
  obtain rfl : digits = digits' := by
    rw [← hdollars digits a b u hdigits, hrest, hdollars digits' a' b' v hdigits']
  simp only [List.append_assoc, List.append_cancel_left_eq, List.cons_append, List.cons.injEq,
    true_and] at hrest
  rw [hrest.1, hrest.2.1]

end Ascii

/-! ## The cents that an amount states -/

/-- `int(match.group(1)) * 100 + int(match.group(2))` -/
def centsOf (amount : List Char) : ℕ :=
  digitsValue (amount.tail.takeWhile (· ≠ '.')) * 100 +
    digitsValue (amount.tail.dropWhile (· ≠ '.')).tail

/-- The amount that the mutation writes. -/
def writtenAmount (cents : ℕ) : String := s!"${cents / 100}.{twoDigits (cents % 100)}"

omit [UnicodeData] in
/-- Two digits, zeros and all. -/
theorem toList_twoDigits {n : ℕ} (hn : n < 100) :
    (twoDigits n).toList = [Nat.digitChar (n / 10), Nat.digitChar (n % 10)] := by
  rw [twoDigits]
  split_ifs with hsmall
  · have htext : (s!"0{n}").toList = '0' :: Nat.toDigits 10 n := by
      rw [← Nat.toList_repr]
      exact String.toList_append
    rw [htext, Nat.toDigits_of_lt_base hsmall, Nat.div_eq_of_lt hsmall, Nat.mod_eq_of_lt hsmall]
    rfl
  · have htens : n / 10 < 10 := by omega
    rw [Nat.toString_eq_repr, Nat.toList_repr, Nat.toDigits_of_base_le (by decide) (by omega),
      Nat.toDigits_of_lt_base htens]
    rfl

omit [UnicodeData] in
theorem toList_writtenAmount (cents : ℕ) : (writtenAmount cents).toList =
    '$' :: (Nat.toDigits 10 (cents / 100) ++
      ['.', Nat.digitChar (cents % 100 / 10), Nat.digitChar (cents % 100 % 10)]) := by
  have htext : (writtenAmount cents).toList =
      '$' :: ((cents / 100).repr.toList ++ ('.' :: (twoDigits (cents % 100)).toList)) := by
    rw [writtenAmount, String.toList_append, String.toList_append, String.toList_append,
      List.append_assoc, List.append_assoc]
    rfl
  rw [htext, Nat.toList_repr, toList_twoDigits (Nat.mod_lt _ (by decide))]

/-- **What is written is an amount.** -/
theorem matches_writtenAmount (hascii : DecimalAscii) (cents : ℕ) :
    dollarAmountPattern.Matches (writtenAmount cents).toList := by
  have hdigits : ∀ c ∈ Nat.toDigits 10 (cents / 100), isDecimal c = true := fun c hc =>
    hascii.isDecimal_of_isDigit (Nat.isDigit_of_mem_toDigits (by decide) (by decide) hc)
  have hdigit : ∀ n < 10, isDecimal (Nat.digitChar n) = true := fun n hn =>
    hascii.isDecimal_of_isDigit (by rw [Nat.isDigit_digitChar, decide_eq_true hn])
  obtain ⟨d, digits, hne⟩ := List.exists_cons_of_ne_nil
    (Nat.toDigits_ne_nil : Nat.toDigits 10 (cents / 100) ≠ [])
  rw [dollarAmountPattern_matches_iff, toList_writtenAmount]
  rw [hne] at hdigits ⊢
  obtain ⟨hd, hdigits⟩ := List.forall_mem_cons.mp hdigits
  exact ⟨d, digits, _, _, rfl, hd, hdigits, hdigit _ (by omega), hdigit _ (by omega)⟩

omit [UnicodeData] in
/-- The cents are two digits. -/
theorem isDigit_of_mem_cents {cents : ℕ} {c : Char}
    (hc : c ∈ [Nat.digitChar (cents % 100 / 10), Nat.digitChar (cents % 100 % 10)]) :
    c.isDigit = true := by
  rcases List.mem_pair.mp hc with rfl | rfl <;> rw [Nat.isDigit_digitChar, decide_eq_true_eq] <;>
    omega

/-- **It reads back as the cents it was written for.** -/
theorem centsOf_writtenAmount (hascii : DecimalAscii) (cents : ℕ) :
    centsOf (writtenAmount cents).toList = cents := by
  have hpoint : ∀ c ∈ Nat.toDigits 10 (cents / 100), decide (c ≠ '.') = true := by
    intro c hc
    have hdigit := Nat.isDigit_of_mem_toDigits (by decide) (by decide) hc
    refine decide_eq_true fun hcp => ?_
    rw [hcp] at hdigit
    exact absurd hdigit (by decide)
  have hdollars : digitsValue (Nat.toDigits 10 (cents / 100)) = cents / 100 := by
    rw [hascii.digitsValue_eq fun c hc =>
      Nat.isDigit_of_mem_toDigits (by decide) (by decide) hc, Nat.ofDigitChars_ten_toDigits]
  have hcents : digitsValue [Nat.digitChar (cents % 100 / 10), Nat.digitChar (cents % 100 % 10)] =
      cents % 100 := by
    rw [hascii.digitsValue_eq fun _ => isDigit_of_mem_cents,
      Nat.ofDigitChars_cons_digitChar_of_lt_ten (by omega),
      Nat.ofDigitChars_cons_digitChar_of_lt_ten (by omega), Nat.ofDigitChars_nil]
    omega
  rw [centsOf, toList_writtenAmount, List.tail_cons, List.takeWhile_append_of_pos hpoint,
    List.dropWhile_append_of_pos hpoint]
  simp only [ne_eq, not_true_eq_false, decide_false, Bool.false_eq_true, not_false_eq_true,
    List.takeWhile_cons_of_neg, List.dropWhile_cons_of_neg, List.append_nil, List.tail_cons,
    hdollars, hcents]
  omega

/-! ## The figure that changes -/

/-- **One figure differs, and nothing else**: `stated` is in the variant what `amount` is in the
task, `offset` cents higher. -/
structure FigureChanged (task : BenchmarkTask) (variant : AdversarialVariant)
    (amount stated : Found Char) (offset : ℕ) : Prop where
  /-- what precedes and follows the figure stays -/
  placed : ∃ before, task.input.toList = before ++ (amount.text ++ amount.place.rest) ∧
    variant.task.input.toList = before ++ (stated.text ++ amount.place.rest)
  /-- it is the first in the variant, at the same position -/
  first : search (· = '\n') dollarAmountPattern true variant.task.input.toList = some stated
  rest : stated.place.rest = amount.place.rest
  cents : centsOf stated.text = centsOf amount.text + offset
  twoCentDigits : ∃ dollars cents, stated.text = '$' :: (dollars ++ '.' :: cents) ∧
    cents.length = 2 ∧ ∀ c ∈ dollars ++ cents, c.isDigit = true
  /-- the contract and the seeded state are those of the task -/
  untouched :
    { variant.task with taskId := task.taskId, input := task.input, tags := task.tags } = task

/-- Another amount in the place of the first is found first. -/
theorem search_replaced (hascii : DecimalAscii) {before text after : List Char}
    (h : FirstAt dollarAmountPattern before text after) (cents : ℕ) :
    ∃ stated, search (· = '\n') dollarAmountPattern true
        (before ++ ((writtenAmount cents).toList ++ after)) = some stated ∧
      stated.split = ((writtenAmount cents).toList, after) := by
  have hmatch := matches_writtenAmount hascii cents
  have hfirst := h.replace (fun _ hx => sign_head hascii hx) hmatch after
  exact hfirst.search rfl (fun y z heq hy => amount_unique hascii hy hmatch heq.symm) true

/-- **The amount that is replaced is the first**: what is written in its place is not put
anywhere before it. -/
theorem replaceOnce_amount (hascii : DecimalAscii) {text : String} {before amount after : List Char}
    (htext : text.toList = before ++ (amount ++ after))
    (h : FirstAt dollarAmountPattern before amount after) (new : String) :
    (replaceOnce text (String.ofList amount) new).toList = before ++ (new.toList ++ after) := by
  rw [replaceOnce, String.toList_ofList, String.toList_ofList, htext]
  refine replacedOnce_append ?_ fun before' rest heq hlt hprefix => ?_
  · obtain ⟨x, hx, -⟩ := sign_head hascii h.isMatch
    rw [hx]
    exact List.cons_ne_nil _ _
  · obtain ⟨tail, rfl⟩ := hprefix
    exact h.first before' amount tail heq hlt h.isMatch

variable [RandomGenerator]

/-- The variant: the amount is written in the place of the first. -/
theorem injectConflictingDetail_eq {task : BenchmarkTask} (randomSeed : ℤ) {amount : Found Char}
    (h : search (· = '\n') dollarAmountPattern true task.input.toList = some amount) :
    injectConflictingDetail task randomSeed =
      applied task
        { task with
          input := replaceOnce task.input (String.ofList amount.text)
            (writtenAmount (centsOf amount.text + (randint randomSeed [] 1 500).toNat)) }
        "conflict" "conflicting_detail" randomSeed := by
  rw [injectConflictingDetail, h]
  rfl

/-- **The conflicting detail is one figure**: the first amount in the input, written anew where it
stands, with the cents that were drawn added. -/
theorem injectConflictingDetail_changes_one_figure (hascii : DecimalAscii) {task : BenchmarkTask}
    (randomSeed : ℤ) {amount : Found Char}
    (h : search (· = '\n') dollarAmountPattern true task.input.toList = some amount) :
    ∃ stated, ∃ offset : ℕ, 1 ≤ offset ∧ offset ≤ 500 ∧ offset = randint randomSeed [] 1 500 ∧
      (injectConflictingDetail task randomSeed).validatorResult = true ∧
      FigureChanged task (injectConflictingDetail task randomSeed) amount stated offset := by
  obtain ⟨before, hinput, hfirst⟩ := Pattern.search_eq_some (r := dollarAmountPattern) rfl h
  obtain ⟨hlow, hhigh⟩ : 1 ≤ randint randomSeed [] 1 500 ∧ randint randomSeed [] 1 500 ≤ 500 :=
    randint_mem randomSeed [] (by decide)
  obtain ⟨offset, hoffset⟩ := Int.eq_ofNat_of_zero_le (a := randint randomSeed [] 1 500) (by omega)
  obtain ⟨stated, hsearch, hsplit⟩ :=
    search_replaced hascii hfirst (centsOf amount.text + offset)
  obtain ⟨htext, hrest⟩ := Prod.mk.inj hsplit
  have hvariant := injectConflictingDetail_eq randomSeed h
  rw [hoffset, Int.toNat_natCast] at hvariant
  have hplaced := replaceOnce_amount hascii hinput hfirst
    (writtenAmount (centsOf amount.text + offset))
  rw [hvariant]
  refine ⟨stated, offset, by omega, by omega, hoffset.symm, rfl, ⟨before, hinput, ?_⟩, ?_, hrest,
    ?_, ?_, rfl⟩
  · rw [htext]
    exact hplaced
  · rw [← hplaced] at hsearch
    exact hsearch
  · rw [htext, centsOf_writtenAmount hascii]
  · refine ⟨_, _, htext.trans (toList_writtenAmount _), rfl, fun c hc => ?_⟩
    rcases List.mem_append.mp hc with hc | hc
    · exact Nat.isDigit_of_mem_toDigits (by decide) (by decide) hc
    · exact isDigit_of_mem_cents hc

/-- A task whose input states an amount twice, with zeros before it and a digit behind. -/
def amountTask : BenchmarkTask :=
  { addressTask with
    input := "Customer CUST-001 was charged $007.995 and asks why it says $7.99 elsewhere." }

omit [UnicodeData] [RandomGenerator] in
/-- The first amount of a task is written anew, one cent higher. -/
theorem injectConflictingDetail_changes_one_figure_amountTask :
    let _ := leastDraws
    let _ := asciiDigits
    ∃ stated : Found Char,
      search (· = '\n') dollarAmountPattern true
        (injectConflictingDetail amountTask 3).task.input.toList = some stated ∧
      centsOf stated.text = 800 := by
  let _ := leastDraws
  let _ := asciiDigits
  have hsearch : ∃ amount ∈ search (· = '\n') dollarAmountPattern true amountTask.input.toList,
      centsOf amount.text = 799 := by decide +kernel
  obtain ⟨amount, hamount, hcents⟩ := hsearch
  obtain ⟨stated, offset, -, -, hoffset, -, hchanged⟩ :=
    injectConflictingDetail_changes_one_figure decimalAscii_asciiDigits 3 hamount
  have hone : offset = 1 := Int.ofNat.inj hoffset
  exact ⟨stated, hchanged.first, by rw [hchanged.cents, hcents, hone]⟩

end AgentProof
