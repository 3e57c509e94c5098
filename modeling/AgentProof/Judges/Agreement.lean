import AgentProof.Machinery.Tally
import AgentProof.Python.Errors
import Mathlib.Algebra.BigOperators.Ring.Finset
import Mathlib.Algebra.Order.Field.Rat
import Mathlib.Tactic.Linarith

/-!
# Judges/Agreement — three notions of disagreement between judges

`summarize_agreement` counts the labels and asks how large the share of the most frequent one is;
`pairwise_agreement_rate` goes through the pairs of verdicts; the dashboard counts the distinct
labels.  With the counts `c` of the labels of `n` verdicts, the pairs that agree are half of
`∑ c (c - 1)`, and the three say the same about unanimity (`agreement_consistent`).

The rates are exact.
-/

open Machinery

namespace AgentProof

/-! ## The code -/

/-- `judges.llm.JudgeVerdict`.  Nothing checks that the label is one of the three. -/
structure Llm.JudgeVerdict where
  taskId : String
  judgeName : String
  rubricVersion : String
  label : String
  confidence : PyFloat
  rationale : String

/-- `AgreementReport` -/
structure AgreementReport where
  taskId : String
  verdicts : List Llm.JudgeVerdict
  consensusLabel : Option String
  agreementRate : ℚ
  disagreement : Bool

/-- The default of `disagreement_threshold`. -/
def defaultThreshold : ℚ := 1

/-- `summarize_agreement` -/
def summarizeAgreement (taskId : String) (verdicts : List Llm.JudgeVerdict)
    (disagreementThreshold : ℚ) : Except PyError AgreementReport :=
  if verdicts = [] then
    .error (.valueError "summarize_agreement requires at least one verdict")
  else
    let labelCounts := tally (verdicts.map (·.label))
    let maxCount := greatest (labelCounts.map Prod.snd)
    let topLabels := (labelCounts.filter fun entry => entry.2 = maxCount).map Prod.fst
    let consensusLabel := sole topLabels
    let agreementRate : ℚ := maxCount / verdicts.length
    .ok ⟨taskId, verdicts, consensusLabel, agreementRate, agreementRate < disagreementThreshold⟩

/-- `pairwise_agreement_rate` -/
def pairwiseAgreementRate (verdicts : List Llm.JudgeVerdict) : ℚ :=
  if verdicts.length < 2 then 1
  else
    let agreeing := (pairs verdicts).filter fun pair => pair.1.label = pair.2.label
    agreeing.length / (pairs verdicts).length

/-- `judgesDisagree` of `JudgeResultsPage`, once the verdicts are loaded. -/
def judgesDisagree (labels : List String) : Bool :=
  let distinctLabels := labels.dedup
  1 < distinctLabels.length

/-! ## Counting -/

/-- The labels of some verdicts. -/
abbrev labelsOf (verdicts : List Llm.JudgeVerdict) : List String := verdicts.map (·.label)

/-- What `summarize_agreement` reports, by the most frequent labels. -/
theorem summarizeAgreement_eq_ok (taskId : String) {verdicts : List Llm.JudgeVerdict}
    (h : verdicts ≠ []) (disagreementThreshold : ℚ) :
    summarizeAgreement taskId verdicts disagreementThreshold =
      let agreementRate : ℚ := topCount (labelsOf verdicts) / verdicts.length
      .ok ⟨taskId, verdicts, sole (leaders (labelsOf verdicts)), agreementRate,
        agreementRate < disagreementThreshold⟩ := if_neg h

section Pairs

variable (verdicts : List Llm.JudgeVerdict)

/-- The sum of `c (c - 1)` over the labels, with their counts `c`. -/
def agreeingPlaces : ℚ :=
  ∑ label ∈ (labelsOf verdicts).toFinset,
    ((labelsOf verdicts).count label : ℚ) * ((labelsOf verdicts).count label - 1)

/-- The sum is that of the counts, one for each verdict, without the verdicts themselves. -/
theorem agreeingPlaces_eq : agreeingPlaces verdicts =
    ((labelsOf verdicts).map fun label => (labelsOf verdicts).count label).sum -
      verdicts.length := by
  have hsquares : ((labelsOf verdicts).map fun label => (labelsOf verdicts).count label).sum =
      ∑ label ∈ (labelsOf verdicts).toFinset,
        (labelsOf verdicts).count label * (labelsOf verdicts).count label :=
    Finset.sum_list_map_count _ _
  have hlength : verdicts.length =
      ∑ label ∈ (labelsOf verdicts).toFinset, (labelsOf verdicts).count label := by
    rw [List.sum_toFinset_count_eq_length, List.length_map]
  rw [hsquares, hlength, agreeingPlaces]
  push_cast
  rw [← Finset.sum_sub_distrib]
  exact Finset.sum_congr rfl fun label _ => by ring

/-- **The pairs that agree**, each counted from both sides. -/
theorem two_mul_agreeing : (2 * ((pairs verdicts).filter fun pair =>
    pair.1.label = pair.2.label).length : ℚ) = agreeingPlaces verdicts := by
  have hlabels : ((pairs verdicts).filter fun pair => pair.1.label = pair.2.label).length =
      ((pairs (labelsOf verdicts)).filter fun pair => pair.1 = pair.2).length := by
    rw [pairs_map, List.filter_map, List.length_map]
    rfl
  have hcount := two_mul_agreeing_add_length (labelsOf verdicts)
  rw [List.length_map] at hcount
  rw [agreeingPlaces_eq, hlabels, ← hcount]
  push_cast
  ring

/-- **All the pairs**, each counted from both sides. -/
theorem two_mul_pairs :
    (2 * (pairs verdicts).length : ℚ) = verdicts.length * (verdicts.length - 1) := by
  have hcount : (2 * (pairs verdicts).length + verdicts.length : ℚ) =
      verdicts.length * verdicts.length := by exact_mod_cast two_mul_pairs_add_length verdicts
  linarith

variable {verdicts} (hn : 2 ≤ verdicts.length)
include hn

/-- **The share of pairs that agree, by the counts of the labels.** -/
theorem pairwiseAgreementRate_eq : pairwiseAgreementRate verdicts =
    agreeingPlaces verdicts / (verdicts.length * (verdicts.length - 1)) := by
  rw [pairwiseAgreementRate, if_neg (Nat.not_lt.mpr hn), ← two_mul_pairs, ← two_mul_agreeing,
    mul_div_mul_left _ _ two_ne_zero]

/-- There are pairs. -/
theorem pairs_pos : (0 : ℚ) < verdicts.length * (verdicts.length - 1) := by
  have htwo : (2 : ℚ) ≤ verdicts.length := by exact_mod_cast hn
  exact mul_pos (by linarith) (by linarith)

/-- There are labels. -/
theorem labelsOf_ne_nil : labelsOf verdicts ≠ [] := by
  rw [Ne, List.map_eq_nil_iff]
  rintro rfl
  exact absurd hn (by decide)

/-- No label is given more often than there are verdicts. -/
theorem topCount_labelsOf_le : topCount (labelsOf verdicts) ≤ verdicts.length := by
  have h := topCount_le_length (labelsOf_ne_nil hn)
  rwa [List.length_map] at h

/-- **All pairs agree exactly if the most frequent label is that of all.** -/
theorem pairwiseAgreementRate_eq_one_iff :
    pairwiseAgreementRate verdicts = 1 ↔ topCount (labelsOf verdicts) = verdicts.length := by
  have hsum := sum_count_eq_iff (labelsOf_ne_nil hn)
  rw [List.length_map] at hsum
  rw [pairwiseAgreementRate_eq hn, div_eq_one_iff_eq (pairs_pos hn).ne', agreeingPlaces_eq, ← hsum,
    mul_sub_one, sub_left_inj]
  exact_mod_cast Iff.rfl

/-- **The share of pairs is at most the share of the most frequent label.** -/
theorem pairwiseAgreementRate_le :
    pairwiseAgreementRate verdicts ≤ topCount (labelsOf verdicts) / verdicts.length := by
  have hlength : (0 : ℚ) < verdicts.length := by exact_mod_cast (by omega : 0 < verdicts.length)
  have htop : (topCount (labelsOf verdicts) : ℚ) ≤ verdicts.length := by
    exact_mod_cast topCount_labelsOf_le hn
  have hsum : agreeingPlaces verdicts ≤
      verdicts.length * topCount (labelsOf verdicts) - verdicts.length := by
    have h := sum_count_le (labelsOf verdicts)
    rw [List.length_map] at h
    rw [agreeingPlaces_eq]
    exact sub_le_sub_right (by exact_mod_cast h) _
  rw [pairwiseAgreementRate_eq hn, div_le_div_iff₀ (pairs_pos hn) hlength]
  calc agreeingPlaces verdicts * verdicts.length
      ≤ (verdicts.length * topCount (labelsOf verdicts) - verdicts.length) * verdicts.length :=
        mul_le_mul_of_nonneg_right hsum hlength.le
    _ = topCount (labelsOf verdicts) * (verdicts.length * (verdicts.length - 1)) -
          verdicts.length * (verdicts.length - topCount (labelsOf verdicts)) := by ring
    _ ≤ topCount (labelsOf verdicts) * (verdicts.length * (verdicts.length - 1)) :=
        sub_le_self _ (mul_nonneg hlength.le (sub_nonneg.mpr htop))

end Pairs

/-! ## The metrics together -/

/-- The dashboard shows no disagreement where there is one label. -/
theorem judgesDisagree_eq_false_iff {labels : List String} (h : labels ≠ []) :
    judgesDisagree labels = false ↔ labels.dedup.length = 1 := by
  obtain ⟨label, hlabel⟩ := List.exists_mem_of_ne_nil labels h
  have hpos : 0 < labels.dedup.length := List.length_pos_of_mem (List.mem_dedup.mpr hlabel)
  rw [judgesDisagree, decide_eq_false_iff_not]
  omega

/-- **What the metrics of some verdicts say about each other**, in the report at the default
threshold. -/
structure Consistent (verdicts : List Llm.JudgeVerdict) (report : AgreementReport) : Prop where
  /-- the pairs are counted by the labels -/
  pairwise : pairwiseAgreementRate verdicts =
    agreeingPlaces verdicts / (verdicts.length * (verdicts.length - 1))
  pairwise_le : pairwiseAgreementRate verdicts ≤ report.agreementRate
  pairwise_eq_one : pairwiseAgreementRate verdicts = 1 ↔ report.disagreement = false
  /-- there is one distinct label -/
  unanimous : report.disagreement = false ↔ (labelsOf verdicts).toFinset.card = 1
  dashboard : report.disagreement = judgesDisagree (labelsOf verdicts)
  /-- the consensus is the label that is given most often, -/
  consensus : ∀ label, report.consensusLabel = some label ↔ label ∈ labelsOf verdicts ∧
    ∀ other ∈ labelsOf verdicts, other ≠ label →
      (labelsOf verdicts).count other < (labelsOf verdicts).count label
  /-- and there is none if two are -/
  tie : report.consensusLabel = none ↔
    ∃ label ∈ labelsOf verdicts, ∃ other ∈ labelsOf verdicts, label ≠ other ∧
      (labelsOf verdicts).count label = (labelsOf verdicts).count other ∧
      ∀ third, (labelsOf verdicts).count third ≤ (labelsOf verdicts).count label

/-- The order of the verdicts changes no rate. -/
theorem pairwiseAgreementRate_perm {verdicts verdicts' : List Llm.JudgeVerdict}
    (h : verdicts.Perm verdicts') :
    pairwiseAgreementRate verdicts' = pairwiseAgreementRate verdicts := by
  by_cases hn : verdicts.length < 2
  · rw [pairwiseAgreementRate, pairwiseAgreementRate, if_pos hn, if_pos (h.length_eq ▸ hn)]
  · have hlabels : (labelsOf verdicts).Perm (labelsOf verdicts') := h.map _
    have hplaces : agreeingPlaces verdicts' = agreeingPlaces verdicts := by
      rw [agreeingPlaces, agreeingPlaces, List.toFinset_eq_of_perm _ _ hlabels]
      exact Finset.sum_congr rfl fun label _ => by rw [hlabels.count_eq]
    have hn : 2 ≤ verdicts.length := Nat.le_of_not_lt hn
    rw [pairwiseAgreementRate_eq hn, pairwiseAgreementRate_eq (h.length_eq ▸ hn), hplaces,
      h.length_eq]

/-- **The order of the verdicts changes nothing in the report but itself**, at any threshold. -/
theorem summarizeAgreement_perm (taskId : String) {verdicts verdicts' : List Llm.JudgeVerdict}
    (h : verdicts.Perm verdicts') (disagreementThreshold : ℚ) :
    summarizeAgreement taskId verdicts' disagreementThreshold =
      (summarizeAgreement taskId verdicts disagreementThreshold).map
        fun report => { report with verdicts := verdicts' } := by
  by_cases hempty : verdicts = []
  · subst hempty
    rw [List.nil_perm.mp h]
    rfl
  · have hempty' : verdicts' ≠ [] := fun hnil => hempty (List.perm_nil.mp (hnil ▸ h))
    have hlabels : (labelsOf verdicts).Perm (labelsOf verdicts') := h.map _
    rw [summarizeAgreement_eq_ok taskId hempty, summarizeAgreement_eq_ok taskId hempty',
      topCount_perm hlabels, sole_perm (leaders_perm hlabels), h.length_eq]
    rfl

/-- **The agreement metrics are consistent**, and the same for every order of the verdicts. -/
theorem agreement_consistent (taskId : String) {verdicts : List Llm.JudgeVerdict}
    (hn : 2 ≤ verdicts.length) :
    (∃ report, summarizeAgreement taskId verdicts defaultThreshold = .ok report ∧
      Consistent verdicts report) ∧
    ∀ verdicts', verdicts.Perm verdicts' →
      (∀ disagreementThreshold, summarizeAgreement taskId verdicts' disagreementThreshold =
        (summarizeAgreement taskId verdicts disagreementThreshold).map
          fun report => { report with verdicts := verdicts' }) ∧
      pairwiseAgreementRate verdicts' = pairwiseAgreementRate verdicts := by
  have hverdicts : verdicts ≠ [] := by
    rintro rfl
    exact absurd hn (by decide)
  have hlabels := labelsOf_ne_nil hn
  refine ⟨⟨_, summarizeAgreement_eq_ok taskId hverdicts defaultThreshold, ?_⟩,
    fun verdicts' h => ⟨summarizeAgreement_perm taskId h, pairwiseAgreementRate_perm h⟩⟩
  have hdisagreement : decide ((topCount (labelsOf verdicts) / verdicts.length : ℚ) <
      defaultThreshold) = false ↔ topCount (labelsOf verdicts) = verdicts.length := by
    have hlength : (0 : ℚ) < verdicts.length := by exact_mod_cast (by omega : 0 < verdicts.length)
    have htop := topCount_labelsOf_le hn
    rw [decide_eq_false_iff_not, not_lt, defaultThreshold, le_div_iff₀ hlength, one_mul,
      Nat.cast_le]
    exact ⟨fun hle => le_antisymm htop hle, fun heq => heq.ge⟩
  have hone := topCount_eq_length_iff hlabels
  rw [List.length_map] at hone
  exact
    { pairwise := pairwiseAgreementRate_eq hn
      pairwise_le := pairwiseAgreementRate_le hn
      pairwise_eq_one := (pairwiseAgreementRate_eq_one_iff hn).trans hdisagreement.symm
      unanimous := by rw [List.card_toFinset]; exact hdisagreement.trans hone
      dashboard := by
        rw [Bool.eq_iff_iff, ← not_iff_not, Bool.not_eq_true, Bool.not_eq_true,
          judgesDisagree_eq_false_iff hlabels]
        exact hdisagreement.trans hone
      consensus := fun label => sole_leaders_eq_some_iff
      tie := sole_leaders_eq_none_iff hlabels }

/-- Three verdicts on a task, one of them dissenting. -/
def splitVerdicts : List Llm.JudgeVerdict :=
  [⟨"task-1", "tone", "1", "pass", .fin 1, "Polite."⟩,
    ⟨"task-1", "policy", "1", "fail", .fin 1, "No refund was due."⟩,
    ⟨"task-1", "facts", "1", "pass", .fin 1, "All true."⟩]

/-- One pair of three agrees, two judges of three do, and the dashboard shows a disagreement. -/
theorem agreement_consistent_splitVerdicts :
    ∃ report, summarizeAgreement "task-1" splitVerdicts defaultThreshold = .ok report ∧
      report.disagreement = true ∧ report.consensusLabel = some "pass" ∧
      pairwiseAgreementRate splitVerdicts = 1 / 3 ∧ 1 / 3 ≤ report.agreementRate := by
  have htwo : 2 ≤ splitVerdicts.length := by decide
  obtain ⟨⟨report, hreport, h⟩, -⟩ := agreement_consistent "task-1" htwo
  have hrate : pairwiseAgreementRate splitVerdicts = 1 / 3 := by decide +kernel
  exact ⟨report, hreport, h.dashboard.trans (by decide), (h.consensus "pass").mpr (by decide),
    hrate, hrate ▸ h.pairwise_le⟩

end AgentProof
