import AgentProof.Benchmark.Compositions
import AgentProof.Platform.Dumps

/-!
# Benchmark/Derivations — the id of a variant identifies its derivation

Each mutation appends a segment to the id: two underscores, the name of the mutation, an underscore
and the seed.  A seed has no underscore, so it is what stands behind the last one; before it, no
name behind two underscores ends in another one behind two.  So the last segment can be read off,
and the others before it, down to an id without two underscores in a row
(`derivation_identified`).
-/

open Machinery

namespace AgentProof

/-! ## Segments -/

/-- What a mutation appends to the id. -/
def segment (slug : String) (seed : ℤ) : List Char :=
  "__".toList ++ slug.toList ++ '_' :: (toString seed).toList

/-- The name of a mutation type in ids. -/
def slugOf (mutationType : String) : String := (Dict.get? mutationSlugs mutationType).getD ""

/-- The id of a variant, from the id of the base task and the mutations. -/
def derivedId (base : List Char) (chain : List (String × ℤ)) : List Char :=
  base ++ chain.flatMap fun step => segment (slugOf step.1) step.2

theorem slugOf_eq {mutationType slug : String} (h : (mutationType, slug) ∈ mutationSlugs) :
    slugOf mutationType = slug := by
  have hall : ∀ entry ∈ mutationSlugs, slugOf entry.1 = entry.2 := by decide
  exact hall _ h

/-- A mutation type. -/
def Registered (mutationType : String) : Prop :=
  ∃ slug, (mutationType, slug) ∈ mutationSlugs

/-- **A name behind two underscores ends in no other one behind two.** -/
theorem eq_of_suffix {mutationType mutationType' : String} (h : Registered mutationType)
    (h' : Registered mutationType')
    (hsuffix : "__".toList ++ (slugOf mutationType).toList <:+
      "__".toList ++ (slugOf mutationType').toList) : mutationType = mutationType' := by
  have hall : ∀ entry ∈ mutationSlugs, ∀ entry' ∈ mutationSlugs,
      "__".toList ++ entry.2.toList <:+ "__".toList ++ entry'.2.toList → entry.1 = entry'.1 := by
    decide
  obtain ⟨slug, hslug⟩ := h
  obtain ⟨slug', hslug'⟩ := h'
  rw [slugOf_eq hslug, slugOf_eq hslug'] at hsuffix
  exact hall _ hslug _ hslug' hsuffix

/-- Behind the last separator. -/
theorem append_separator_inj {α : Type*} {c : α} {x y s t : List α} (hs : c ∉ s) (ht : c ∉ t)
    (h : x ++ c :: s = y ++ c :: t) : x = y ∧ s = t := by
  have hlater : ∀ {inside s t : List α}, c ∉ s → c :: s = inside ++ c :: t → inside = [] := by
    intro inside s t hs heq
    cases inside with
    | nil => rfl
    | cons d inside =>
      obtain ⟨rfl, rfl⟩ := List.cons.inj heq
      exact absurd (by simp) hs
  rcases List.append_eq_append_iff.mp h with ⟨inside, rfl, heq⟩ | ⟨inside, rfl, heq⟩
  · obtain rfl := hlater hs heq
    exact ⟨(List.append_nil x).symm, (List.cons.inj heq).2⟩
  · obtain rfl := hlater ht heq
    exact ⟨List.append_nil y, (List.cons.inj heq).2.symm⟩

theorem underscore_notMem (seed : ℤ) : '_' ∉ (toString seed).toList := fun hmem =>
  (toString_int_chars seed '_' hmem).elim (fun h => absurd h (by decide))
    fun h => absurd h (by decide)

/-- **The last segment can be read off.** -/
theorem append_segment_inj {x y : List Char} {mutationType mutationType' : String} {seed seed' : ℤ}
    (hregistered : Registered mutationType) (hregistered' : Registered mutationType')
    (h : x ++ segment (slugOf mutationType) seed = y ++ segment (slugOf mutationType') seed') :
    x = y ∧ (mutationType, seed) = (mutationType', seed') := by
  rw [segment, segment, ← List.append_assoc x, ← List.append_assoc y] at h
  obtain ⟨hnames, hseeds⟩ := append_separator_inj (underscore_notMem seed)
    (underscore_notMem seed') h
  obtain rfl : seed = seed' := toString_int_inj hseeds
  have hsuffix : "__".toList ++ (slugOf mutationType).toList <:+
      y ++ ("__".toList ++ (slugOf mutationType').toList) := hnames ▸ List.suffix_append _ _
  obtain rfl : mutationType = mutationType' :=
    (List.suffix_or_suffix_of_suffix hsuffix (List.suffix_append _ _)).elim
      (eq_of_suffix hregistered hregistered')
      fun h => (eq_of_suffix hregistered' hregistered h).symm
  exact ⟨List.append_cancel_right hnames, rfl⟩

theorem derivedId_concat (base : List Char) (chain : List (String × ℤ)) (step : String × ℤ) :
    derivedId base (chain ++ [step]) =
      derivedId base chain ++ segment (slugOf step.1) step.2 := by
  rw [derivedId, List.flatMap_append, List.flatMap_singleton, ← List.append_assoc]
  rfl

/-- An id with a segment has two underscores in a row. -/
theorem infix_derivedId_concat (base : List Char) (chain : List (String × ℤ)) (step : String × ℤ) :
    "__".toList <:+: derivedId base (chain ++ [step]) := by
  rw [derivedId_concat, segment, List.append_assoc]
  exact (List.prefix_append _ _).isInfix.trans (List.suffix_append _ _).isInfix

/-- **The id is read back**, segment by segment from the end, to the base and the mutations. -/
theorem derivedId_inj {base base' : List Char} (hbase : ¬ "__".toList <:+: base)
    (hbase' : ¬ "__".toList <:+: base') {chain chain' : List (String × ℤ)}
    (hchain : ∀ step ∈ chain, Registered step.1) (hchain' : ∀ step ∈ chain', Registered step.1)
    (h : derivedId base chain = derivedId base' chain') : base = base' ∧ chain = chain' := by
  induction chain using List.reverseRecOn generalizing chain' with
  | nil =>
    rcases List.eq_nil_or_concat' chain' with rfl | ⟨chain', step, rfl⟩
    · simpa [derivedId] using h
    · refine absurd ?_ hbase
      have hpart := infix_derivedId_concat base' chain' step
      rw [← h] at hpart
      simpa [derivedId] using hpart
  | append_singleton chain step ih =>
    rcases List.eq_nil_or_concat' chain' with rfl | ⟨chain', step', rfl⟩
    · refine absurd ?_ hbase'
      have hpart := infix_derivedId_concat base chain step
      rw [h] at hpart
      simpa [derivedId] using hpart
    · rw [derivedId_concat, derivedId_concat] at h
      obtain ⟨hrest, hstep⟩ :=
        append_segment_inj (hchain step (by simp)) (hchain' step' (by simp)) h
      obtain rfl : step = step' := hstep
      obtain ⟨rfl, rfl⟩ := ih (fun step hmem => hchain step (List.mem_append_left _ hmem))
        (fun step hmem => hchain' step (List.mem_append_left _ hmem)) hrest
      exact ⟨rfl, rfl⟩

/-! ## Derivations -/

variable [RandomGenerator] [Interpreter] [UnicodeData]

/-- `task` is made of `base` by mutations, one applied after the other, that all succeed. -/
inductive DerivedFrom (base : BenchmarkTask) : List (String × ℤ) → BenchmarkTask → Prop where
  | base : DerivedFrom base [] base
  | mutate {chain : List (String × ℤ)} {task : BenchmarkTask} {mutationType : String}
      {randomSeed : ℤ} {variant : AdversarialVariant} (h : DerivedFrom base chain task)
      (hvariant : applyMutation mutationType task randomSeed = .ok variant)
      (hsuccess : variant.validatorResult = true) :
      DerivedFrom base (chain ++ [(mutationType, randomSeed)]) variant.task

/-- **The id of a variant** is that of the base task with a segment for each mutation. -/
theorem DerivedFrom.taskId_eq {base task : BenchmarkTask} {chain : List (String × ℤ)}
    (h : DerivedFrom base chain task) :
    task.taskId.toList = derivedId base.taskId.toList chain ∧
      ∀ step ∈ chain, Registered step.1 := by
  induction h with
  | base => exact ⟨(List.append_nil _).symm, fun _ hmem => absurd hmem List.not_mem_nil⟩
  | @mutate chain task mutationType randomSeed variant _ hvariant hsuccess ih =>
    obtain ⟨hid, hregistered⟩ := ih
    obtain ⟨slug, hslug, rfl | ⟨mutated, rfl⟩⟩ := applyMutation_makes hvariant
    · cases hsuccess
    · refine ⟨?_, fun step hmem => ?_⟩
      · have htext : (s!"{task.taskId}__{slug}_{randomSeed}").toList =
            task.taskId.toList ++ segment slug randomSeed := by
          simp only [segment, String.toList_append, List.append_assoc]
          rfl
        rw [derivedId_concat, slugOf_eq hslug, ← hid]
        exact htext
      · rcases List.mem_append.mp hmem with hmem | hmem
        · exact hregistered step hmem
        · obtain rfl := List.mem_singleton.mp hmem
          exact ⟨slug, hslug⟩

/-- **Variant ids identify their derivation.** -/
theorem derivation_identified {base base' task task' : BenchmarkTask}
    {chain chain' : List (String × ℤ)} (hbase : occursIn "__" base.taskId = false)
    (hbase' : occursIn "__" base'.taskId = false) (h : DerivedFrom base chain task)
    (h' : DerivedFrom base' chain' task') :
    task.taskId = task'.taskId ↔ base.taskId = base'.taskId ∧ chain = chain' := by
  obtain ⟨hid, hchain⟩ := h.taskId_eq
  obtain ⟨hid', hchain'⟩ := h'.taskId_eq
  rw [← String.toList_inj, ← String.toList_inj, hid, hid']
  constructor
  · exact derivedId_inj (of_decide_eq_false hbase) (of_decide_eq_false hbase') hchain hchain'
  · rintro ⟨hsame, rfl⟩
    rw [hsame]

omit [RandomGenerator] [Interpreter] [UnicodeData] in
/-- Two distractors of one task, with seeds that differ in their sign, have different ids. -/
theorem derivation_identified_sign :
    let _ := leastDraws
    let _ := cpython
    let _ := asciiDigits
    (injectDistractorInformation (injectDistractorInformation customerRefundWithinPolicy 7).task
        (-12)).task.taskId ≠
      (injectDistractorInformation (injectDistractorInformation customerRefundWithinPolicy 7).task
        12).task.taskId := by
  intro _ _ _ heq
  have hderived : ∀ seed, DerivedFrom customerRefundWithinPolicy
      [("distractor_information", 7), ("distractor_information", seed)]
      (injectDistractorInformation (injectDistractorInformation customerRefundWithinPolicy 7).task
        seed).task := fun seed => .mutate (.mutate .base rfl rfl) rfl rfl
  have hbase : occursIn "__" customerRefundWithinPolicy.taskId = false := by decide +kernel
  have hsame := (derivation_identified hbase hbase (hderived (-12)) (hderived 12)).mp heq
  exact absurd hsame.2 (by decide)

end AgentProof
