import AgentProof.Benchmark.Serialization
import AgentProof.Judges.Agreement

/-!
# Judges/Gold — the labels of a human reviewer

A gold set is written as a JSON file and read back; both ways its task ids are checked to be
distinct.  The dataclass checks no types, so the fields of a label that was read are any JSON
values.

* `loadGoldLabels_save` — what is saved is read back, up to the order of keys;
* `goldLabels_saved` — the file of a gold set stands for it, also in what judges are compared with;
* `goldAgreement_consensus` — judges that agree with the gold set agree with each other.

The rates are exact.
-/

open Machinery Machinery.Raising

namespace AgentProof

/-! ## The code -/

/-- A `datetime` type: a text in ISO 8601, and what is read of one. -/
class IsoFormat (δ : Type) where
  isoformat : δ → String
  fromisoformat : String → Option δ

/-- `GoldLabel` -/
structure GoldLabel (δ : Type) where
  taskId : Json
  label : Json
  rationale : Json
  labeler : Json
  labeledAt : δ

/-- `GoldComparison` -/
structure GoldComparison where
  taskId : String
  judgeName : String
  judgeLabel : String
  goldLabel : Json
  agrees : Bool
  deriving DecidableEq

/-- `GoldAgreementReport` -/
structure GoldAgreementReport where
  judgeName : String
  comparisons : List GoldComparison
  agreementRate : ℚ

section

variable {δ : Type}

/-- `label.task_id in index`.  The index holds every label under its task id. -/
def GoldLabel.isIndexed (gold : GoldLabel δ) (index : List (GoldLabel δ)) : Except PyError Bool :=
  if gold.taskId.hashable then .ok (index.any fun other => Json.pyEq gold.taskId other.taskId)
  else .error (.typeError (.unhashable "dict key" gold.taskId))

variable [Interpreter]

/-- The loop of `_index_by_task_id`. -/
def indexFrom (index : List (GoldLabel δ)) :
    List (GoldLabel δ) → Except PyError (List (GoldLabel δ))
  | [] => .ok index
  | gold :: labels => do
    if ← gold.isIndexed index then
      .error (.other "DuplicateGoldLabelError"
        s!"Duplicate gold label for task: {gold.taskId.format}")
    else indexFrom (index ++ [gold]) labels

/-- `_index_by_task_id` -/
def indexByTaskId (labels : List (GoldLabel δ)) : Except PyError (List (GoldLabel δ)) :=
  indexFrom [] labels

/-- What the loop of `compare_verdicts_to_gold` appends for a verdict, if anything. -/
def compareToGold (index : List (GoldLabel δ)) (verdict : Llm.JudgeVerdict) :
    Option GoldComparison :=
  (index.find? fun gold => Json.pyEq (.str verdict.taskId) gold.taskId).map fun gold =>
    { taskId := verdict.taskId
      judgeName := verdict.judgeName
      judgeLabel := verdict.label
      goldLabel := gold.label
      agrees := Json.pyEq (.str verdict.label) gold.label }

/-- `compare_verdicts_to_gold` -/
def compareVerdictsToGold (verdicts : List Llm.JudgeVerdict) (goldLabels : List (GoldLabel δ)) :
    Except PyError (List GoldComparison) := do
  let goldByTaskId ← indexByTaskId goldLabels
  return verdicts.filterMap (compareToGold goldByTaskId)

end

/-- `summarize_gold_agreement` -/
def summarizeGoldAgreement (judgeName : String) (comparisons : List GoldComparison) :
    Except PyError GoldAgreementReport :=
  let relevant := comparisons.filter fun comparison => comparison.judgeName = judgeName
  if relevant = [] then
    .error (.valueError s!"No gold comparisons found for judge: {judgeName}")
  else
    let agreementRate : ℚ := (relevant.filter (·.agrees)).length / relevant.length
    .ok ⟨judgeName, relevant, agreementRate⟩

/-- `summarize_gold_agreement(judge_name, compare_verdicts_to_gold(verdicts, gold_labels))` -/
def goldAgreement {δ : Type} [Interpreter] (verdicts : List Llm.JudgeVerdict)
    (goldLabels : List (GoldLabel δ)) (judgeName : String) : Except PyError GoldAgreementReport :=
  compareVerdictsToGold verdicts goldLabels >>= summarizeGoldAgreement judgeName

section

variable {δ : Type} [IsoFormat δ]

/-- `gold_label_to_dict` -/
def goldLabelToDict (gold : GoldLabel δ) : Json :=
  .obj [("task_id", gold.taskId), ("label", gold.label), ("rationale", gold.rationale),
    ("labeler", gold.labeler), ("labeled_at", .str (IsoFormat.isoformat gold.labeledAt))]

variable [Interpreter]

/-- `datetime.fromisoformat(value)` -/
def datetimeOf (value : Json) : Except PyError δ :=
  match value with
  | .str text =>
    match IsoFormat.fromisoformat text with
    | some labeledAt => .ok labeledAt
    | none => .error (.valueError s!"Invalid isoformat string: {value.repr}")
  | _ => .error (.other "TypeError" "fromisoformat: argument must be str")

/-- `gold_label_from_dict` -/
def goldLabelFromDict (data : Json) : Except PyError (GoldLabel δ) := do
  return ⟨← data.subscript "task_id", ← data.subscript "label", ← data.subscript "rationale",
    ← data.subscript "labeler", ← datetimeOf (← data.subscript "labeled_at")⟩

/-- `save_gold_labels`: the text of the file. -/
def saveGoldLabels (labels : List (GoldLabel δ)) : Except PyError String := do
  let _ ← indexByTaskId labels
  return (Json.arr (labels.map goldLabelToDict)).dumpsWith indented

/-- `load_gold_labels`, of a file with a text. -/
def loadGoldLabels (text : String) : Except PyError (List (GoldLabel δ)) := do
  let payload ← match loads text with
    | some payload => .ok payload
    | none => .error (.other "JSONDecodeError" text)
  let labels ← (← payload.iter).mapM goldLabelFromDict
  let _ ← indexByTaskId labels
  return labels

end

/-! ## The index -/

section

variable {δ : Type} {labels : List (GoldLabel δ)}

/-- **A gold set**: its task ids can be keys, and no two of its labels are of one task. -/
structure IsGoldSet (labels : List (GoldLabel δ)) : Prop where
  hashable : ∀ gold ∈ labels, gold.taskId.hashable = true
  oncePerTask : labels.Pairwise fun gold other => ¬ Json.Alike gold.taskId other.taskId

/-- A label is new to the index. -/
theorem isIndexed_eq_ok_false_iff {gold : GoldLabel δ} {index : List (GoldLabel δ)} :
    gold.isIndexed index = .ok false ↔ gold.taskId.hashable = true ∧
      ∀ other ∈ index, ¬ Json.Alike gold.taskId other.taskId := by
  rw [GoldLabel.isIndexed]
  split_ifs with hhash
  · rw [Except.ok.injEq, List.any_eq_false]
    simp only [hhash, true_and, Json.pyEq_iff, Json.Alike]
  · exact iff_of_false (by simp) fun h => hhash h.1

theorem isGoldSet_cons_iff {gold : GoldLabel δ} : IsGoldSet (gold :: labels) ↔
    gold.taskId.hashable = true ∧ (∀ other ∈ labels, ¬ Json.Alike gold.taskId other.taskId) ∧
      IsGoldSet labels := by
  constructor
  · rintro ⟨hhashable, honce⟩
    obtain ⟨hgold, honce⟩ := List.pairwise_cons.mp honce
    exact ⟨hhashable gold (.head _), hgold, (List.forall_mem_cons.mp hhashable).2, honce⟩
  · rintro ⟨hhash, hgold, hset⟩
    exact ⟨List.forall_mem_cons.mpr ⟨hhash, hset.hashable⟩,
      List.pairwise_cons.mpr ⟨hgold, hset.oncePerTask⟩⟩

variable [Interpreter]

/-- **Step lemma**: the loop goes on with a label that is new to the index. -/
theorem indexFrom_cons_eq_ok_iff {gold : GoldLabel δ} {index result : List (GoldLabel δ)} :
    indexFrom index (gold :: labels) = .ok result ↔
      gold.isIndexed index = .ok false ∧ indexFrom (index ++ [gold]) labels = .ok result := by
  rw [indexFrom, except_bind_eq_ok]
  constructor
  · rintro ⟨indexed, hindexed, h⟩
    cases indexed with
    | true => exact absurd h (by simp)
    | false => exact ⟨hindexed, h⟩
  · exact fun h => ⟨false, h⟩

/-- **Run lemma**: the loop goes through a gold set whose tasks are new to the index. -/
theorem indexFrom_eq_ok_iff {index result : List (GoldLabel δ)} :
    indexFrom index labels = .ok result ↔ IsGoldSet labels ∧
      (∀ gold ∈ labels, ∀ other ∈ index, ¬ Json.Alike gold.taskId other.taskId) ∧
        result = index ++ labels := by
  induction labels generalizing index with
  | nil =>
    rw [indexFrom, Except.ok.injEq, List.append_nil, eq_comm]
    exact ⟨fun h => ⟨⟨by simp, .nil⟩, by simp, h⟩, fun h => h.2.2⟩
  | cons gold labels ih =>
    rw [indexFrom_cons_eq_ok_iff, isIndexed_eq_ok_false_iff, ih, isGoldSet_cons_iff,
      List.append_assoc, List.singleton_append]
    constructor
    · rintro ⟨⟨hhash, hnew⟩, hset, hothers, rfl⟩
      refine ⟨⟨hhash, fun other hother h => ?_, hset⟩, List.forall_mem_cons.mpr
        ⟨hnew, fun other hother earlier hearlier => ?_⟩, rfl⟩
      · exact hothers other hother gold (by simp) h.symm
      · exact hothers other hother earlier (List.mem_append_left _ hearlier)
    · rintro ⟨⟨hhash, hgold, hset⟩, hothers, rfl⟩
      obtain ⟨hnew, hothers⟩ := List.forall_mem_cons.mp hothers
      refine ⟨⟨hhash, hnew⟩, hset, fun other hother earlier hearlier h => ?_, rfl⟩
      rcases List.mem_append.mp hearlier with hearlier | hearlier
      · exact hothers other hother earlier hearlier h
      · exact hgold other hother (List.mem_singleton.mp hearlier ▸ h.symm)

/-- **The labels are indexed exactly if they are a gold set.** -/
theorem indexByTaskId_eq_ok_iff {index : List (GoldLabel δ)} :
    indexByTaskId labels = .ok index ↔ IsGoldSet labels ∧ index = labels := by
  rw [indexByTaskId, indexFrom_eq_ok_iff]
  simp

theorem IsGoldSet.indexed (h : IsGoldSet labels) : indexByTaskId labels = .ok labels :=
  indexByTaskId_eq_ok_iff.mpr ⟨h, rfl⟩

end

/-! ## The file -/

section

variable {δ : Type} {E : Json → Json → Prop}

/-- Two labels with related fields, of one time. -/
structure GoldLabel.Related (r : Json → Json → Prop) (a b : GoldLabel δ) : Prop where
  taskId : r a.taskId b.taskId
  label : r a.label b.label
  rationale : r a.rationale b.rationale
  labeler : r a.labeler b.labeler
  labeledAt : a.labeledAt = b.labeledAt

/-- The label with the keys of its values in order. -/
def GoldLabel.sortKeys (gold : GoldLabel δ) : GoldLabel δ where
  taskId := gold.taskId.sortKeys
  label := gold.label.sortKeys
  rationale := gold.rationale.sortKeys
  labeler := gold.labeler.sortKeys
  labeledAt := gold.labeledAt

theorem related_golds_sortKeys (hE : Json.Extensional E) (hrefl : ∀ j, E j j)
    (labels : List (GoldLabel δ)) :
    List.Forall₂ (GoldLabel.Related E) (labels.map GoldLabel.sortKeys) labels := by
  rw [List.forall₂_map_left_iff, List.forall₂_same]
  exact fun gold _ => ⟨hE.sortKeys hrefl _, hE.sortKeys hrefl _, hE.sortKeys hrefl _,
    hE.sortKeys hrefl _, rfl⟩

theorem IsGoldSet.sortKeys {labels : List (GoldLabel δ)} (h : IsGoldSet labels) :
    IsGoldSet (labels.map GoldLabel.sortKeys) where
  hashable := List.forall_mem_map.mpr fun gold hgold =>
    (Json.alike_sortKeys gold.taskId).hashable_eq.trans (h.hashable gold hgold)
  oncePerTask := List.pairwise_map.mpr <| h.oncePerTask.imp fun {gold other} hne halike =>
    hne ((Json.alike_sortKeys gold.taskId).symm.trans
      (halike.trans (Json.alike_sortKeys other.taskId)))

variable [IsoFormat δ]

/-- What `save_gold_labels` writes. -/
def goldPayload (labels : List (GoldLabel δ)) : Json := .arr (labels.map goldLabelToDict)

/-- Every float of the labels passes a test. -/
def FloatsOfGold (p : PyFloat → Bool) (labels : List (GoldLabel δ)) : Prop :=
  (goldPayload labels).floatsAll p = true

/-- **Two labels are equal when their dictionaries are**, if their times are told apart by their
texts. -/
theorem related_gold_iff (hE : Json.Extensional E)
    (hiso : ∀ d : δ, IsoFormat.fromisoformat (IsoFormat.isoformat d) = some d)
    {a b : GoldLabel δ} : E (goldLabelToDict a) (goldLabelToDict b) ↔ a.Related E b := by
  have htime : E (.str (IsoFormat.isoformat a.labeledAt)) (.str (IsoFormat.isoformat b.labeledAt)) ↔
      a.labeledAt = b.labeledAt := by
    rw [hE.str_iff, Json.str.injEq]
    refine ⟨fun h => Option.some.inj ?_, fun h => by rw [h]⟩
    rw [← hiso a.labeledAt, ← h, hiso]
  unfold goldLabelToDict
  rw [hE.obj_iff_forall₂]
  · simp only [List.map_cons, List.map_nil, List.forall₂_cons, List.forall₂_nil_right_iff, and_true,
      htime]
    exact ⟨fun ⟨h₁, h₂, h₃, h₄, h₅⟩ => ⟨h₁, h₂, h₃, h₄, h₅⟩,
      fun h => ⟨h.taskId, h.label, h.rationale, h.labeler, h.labeledAt⟩⟩
  · rfl
  · simp

theorem related_golds_iff (hE : Json.Extensional E)
    (hiso : ∀ d : δ, IsoFormat.fromisoformat (IsoFormat.isoformat d) = some d)
    {as bs : List (GoldLabel δ)} :
    E (goldPayload as) (goldPayload bs) ↔ List.Forall₂ (GoldLabel.Related E) as bs := by
  simp only [goldPayload, hE.arr_iff, List.forall₂_map_left_iff, List.forall₂_map_right_iff,
    related_gold_iff hE hiso]

variable [Interpreter] {p : PyFloat → Bool}

/-- **Only a gold set is saved.** -/
theorem saveGoldLabels_eq_ok_iff {labels : List (GoldLabel δ)} {text : String} :
    saveGoldLabels labels = .ok text ↔
      IsGoldSet labels ∧ (goldPayload labels).dumpsWith indented = text := by
  rw [saveGoldLabels]
  cases hindex : indexByTaskId labels with
  | error e =>
    refine iff_of_false (by simp [bind, Except.bind]) fun h => ?_
    exact absurd (hindex.symm.trans h.1.indexed) (by simp)
  | ok index =>
    have hset := (indexByTaskId_eq_ok_iff.mp hindex).1
    exact ⟨fun h => ⟨hset, Except.ok.inj h⟩, fun h => congrArg Except.ok h.2⟩

/-- Only a gold set is loaded. -/
theorem isGoldSet_of_load {labels : List (GoldLabel δ)} {text : String}
    (h : loadGoldLabels text = .ok labels) : IsGoldSet labels := by
  rw [loadGoldLabels] at h
  cases htext : loads text with
  | none =>
    rw [htext] at h
    exact absurd h (by simp [bind, Except.bind])
  | some payload =>
    rw [htext] at h
    obtain ⟨value, -, h⟩ := except_bind_eq_ok.mp h
    obtain ⟨items, -, h⟩ := except_bind_eq_ok.mp h
    obtain ⟨golds, -, h⟩ := except_bind_eq_ok.mp h
    obtain ⟨index, hindex, h⟩ := except_bind_eq_ok.mp h
    obtain rfl := Except.ok.inj h
    exact (indexByTaskId_eq_ok_iff.mp hindex).1

/-- The decoder inverts the encoder, up to the order of keys. -/
theorem goldLabelFromDict_toDict
    (hiso : ∀ d : δ, IsoFormat.fromisoformat (IsoFormat.isoformat d) = some d)
    (gold : GoldLabel δ) :
    goldLabelFromDict (goldLabelToDict gold).sortKeys = .ok gold.sortKeys := by
  have htaskId : (goldLabelToDict gold).sortKeys.subscript "task_id" = _ := subscript_sortKeys rfl
  have hlabel : (goldLabelToDict gold).sortKeys.subscript "label" = _ := subscript_sortKeys rfl
  have hrationale : (goldLabelToDict gold).sortKeys.subscript "rationale" = _ :=
    subscript_sortKeys rfl
  have hlabeler : (goldLabelToDict gold).sortKeys.subscript "labeler" = _ := subscript_sortKeys rfl
  have hlabeledAt : (goldLabelToDict gold).sortKeys.subscript "labeled_at" = _ :=
    subscript_sortKeys rfl
  have htime : datetimeOf (Json.str (IsoFormat.isoformat gold.labeledAt)).sortKeys =
      .ok gold.labeledAt := by
    simp [Json.sortKeys, datetimeOf, hiso]
  rw [goldLabelFromDict, htaskId, hlabel, hrationale, hlabeler, hlabeledAt]
  simp only [bind, Except.bind, htime]
  rfl

/-- **What was saved is loaded**, with its keys in order. -/
theorem loadGoldLabels_save (hrepr : FloatsReadBack p)
    (hiso : ∀ d : δ, IsoFormat.fromisoformat (IsoFormat.isoformat d) = some d)
    {labels : List (GoldLabel δ)} (hfloats : FloatsOfGold p labels) (hset : IsGoldSet labels) :
    loadGoldLabels ((goldPayload labels).dumpsWith indented) =
      .ok (labels.map GoldLabel.sortKeys) := by
  have hgolds : ((labels.map goldLabelToDict).map Json.sortKeys).mapM goldLabelFromDict =
      .ok (labels.map GoldLabel.sortKeys) := by
    rw [List.map_map]
    exact mapM_map_ok (goldLabelFromDict_toDict hiso) labels
  rw [loadGoldLabels, Json.loads_dumpsWith indented hrepr hfloats]
  simp only [bind, Except.bind, goldPayload, iter_sortKeys, hgolds, hset.sortKeys.indexed]
  rfl

/-! ## The comparison -/

/-- The comparison with the keys of its label in order. -/
def GoldComparison.sortKeys (comparison : GoldComparison) : GoldComparison :=
  { comparison with goldLabel := comparison.goldLabel.sortKeys }

omit [IsoFormat δ] [Interpreter] in
/-- The order of keys changes no comparison. -/
theorem compareToGold_sortKeys (labels : List (GoldLabel δ)) (verdict : Llm.JudgeVerdict) :
    compareToGold (labels.map GoldLabel.sortKeys) verdict =
      (compareToGold labels verdict).map GoldComparison.sortKeys := by
  have hkey : (fun gold : GoldLabel δ => Json.pyEq (.str verdict.taskId) gold.taskId) ∘
      GoldLabel.sortKeys = fun gold => Json.pyEq (.str verdict.taskId) gold.taskId :=
    funext fun gold => (Json.Alike.refl _).pyEq_eq (Json.alike_sortKeys gold.taskId)
  rw [compareToGold, List.find?_map, hkey, compareToGold, Option.map_map, Option.map_map]
  refine Option.map_congr fun gold _ => ?_
  have hagrees : Json.pyEq (.str verdict.label) gold.label.sortKeys =
      Json.pyEq (.str verdict.label) gold.label :=
    (Json.Alike.refl _).pyEq_eq (Json.alike_sortKeys gold.label)
  simp only [Function.comp_apply, GoldLabel.sortKeys, GoldComparison.sortKeys, hagrees]

omit [IsoFormat δ] in
/-- A gold set is compared verdict by verdict. -/
theorem IsGoldSet.compared {labels : List (GoldLabel δ)} (h : IsGoldSet labels)
    (verdicts : List Llm.JudgeVerdict) :
    compareVerdictsToGold verdicts labels = .ok (verdicts.filterMap (compareToGold labels)) := by
  rw [compareVerdictsToGold, h.indexed]
  rfl

omit [Interpreter] in
/-- The order of keys changes no rate. -/
theorem summarizeGoldAgreement_sortKeys (judgeName : String) (comparisons : List GoldComparison) :
    (summarizeGoldAgreement judgeName (comparisons.map GoldComparison.sortKeys)).map
        (·.agreementRate) =
      (summarizeGoldAgreement judgeName comparisons).map (·.agreementRate) := by
  have hjudge : (fun comparison : GoldComparison => decide (comparison.judgeName = judgeName)) ∘
      GoldComparison.sortKeys = fun comparison => decide (comparison.judgeName = judgeName) := rfl
  simp only [summarizeGoldAgreement, List.filter_map, hjudge, List.map_eq_nil_iff, List.length_map]
  split_ifs <;> rfl

/-- **The file of a gold set stands for it.**  Labels are saved exactly if they are a gold set.
What was saved is loaded as an equal gold set, which is saved as the same file, and which no judge's
agreement rate tells from it; two sets that are saved as one file are the same up to the order of
keys.  And only gold sets are loaded. -/
theorem goldLabels_saved (hrepr : FloatsReadBack p)
    (hiso : ∀ d : δ, IsoFormat.fromisoformat (IsoFormat.isoformat d) = some d) :
    (∀ labels : List (GoldLabel δ), FloatsOfGold p labels →
      ((∃ text, saveGoldLabels labels = .ok text) ↔ IsGoldSet labels) ∧
      ∀ text, saveGoldLabels labels = .ok text →
        (∃ loaded, loadGoldLabels text = .ok loaded ∧
          List.Forall₂ (GoldLabel.Related Json.Alike) loaded labels ∧
          saveGoldLabels loaded = .ok text ∧
          ∀ verdicts judgeName,
            (goldAgreement verdicts loaded judgeName).map (·.agreementRate) =
              (goldAgreement verdicts labels judgeName).map (·.agreementRate)) ∧
        ∀ others : List (GoldLabel δ), FloatsOfGold p others → saveGoldLabels others = .ok text →
          List.Forall₂ (GoldLabel.Related Json.Same) others labels) ∧
    ∀ (text : String) (loaded : List (GoldLabel δ)),
      loadGoldLabels text = .ok loaded → IsGoldSet loaded := by
  refine ⟨fun labels hfloats => ⟨?_, fun text hsaved => ⟨?_, fun others hothers hsaved' => ?_⟩⟩,
    fun text loaded => isGoldSet_of_load⟩
  · exact ⟨fun ⟨_, h⟩ => (saveGoldLabels_eq_ok_iff.mp h).1,
      fun h => ⟨_, saveGoldLabels_eq_ok_iff.mpr ⟨h, rfl⟩⟩⟩
  · obtain ⟨hset, rfl⟩ := saveGoldLabels_eq_ok_iff.mp hsaved
    refine ⟨_, loadGoldLabels_save hrepr hiso hfloats hset,
      related_golds_sortKeys Json.alike_extensional Json.Alike.refl labels, ?_,
      fun verdicts judgeName => ?_⟩
    · have hsame : Json.Same (goldPayload (labels.map GoldLabel.sortKeys)) (goldPayload labels) :=
        (related_golds_iff Json.same_extensional hiso).mpr
          (related_golds_sortKeys Json.same_extensional Json.Same.refl labels)
      exact saveGoldLabels_eq_ok_iff.mpr
        ⟨hset.sortKeys, congrArg (fun j : Json => String.ofList (j.write indented 0)) hsame⟩
    · have hcompared : verdicts.filterMap (compareToGold (labels.map GoldLabel.sortKeys)) =
          (verdicts.filterMap (compareToGold labels)).map GoldComparison.sortKeys := by
        rw [List.map_filterMap]
        exact List.filterMap_congr fun verdict _ => compareToGold_sortKeys labels verdict
      rw [goldAgreement, goldAgreement, hset.sortKeys.compared, hset.compared, hcompared]
      exact summarizeGoldAgreement_sortKeys judgeName _
  · obtain ⟨-, hpayload⟩ := saveGoldLabels_eq_ok_iff.mp hsaved
    obtain ⟨-, hpayload'⟩ := saveGoldLabels_eq_ok_iff.mp hsaved'
    refine (related_golds_iff Json.same_extensional hiso).mp ?_
    exact (Json.dumpsWith_eq_iff indented hrepr hothers hfloats).mp (hpayload'.trans hpayload.symm)

end

/-- Two days, with their texts. -/
@[reducible] def reviewDays : IsoFormat Bool where
  isoformat day := if day then "2026-01-06T09:30:00+00:00" else "2026-01-05T09:30:00+00:00"
  fromisoformat text :=
    if text = "2026-01-06T09:30:00+00:00" then some true
    else if text = "2026-01-05T09:30:00+00:00" then some false
    else none

/-- The labels of two tasks. -/
def reviewedLabels : List (GoldLabel Bool) :=
  [⟨.str "task-1", .str "pass", .str "The refund was due.", .str "reviewer", false⟩,
    ⟨.str "task-2", .str "fail", .str "The order had been shipped.", .str "reviewer", true⟩]

theorem isGoldSet_reviewedLabels : IsGoldSet reviewedLabels where
  hashable := by decide
  oncePerTask := by simp [reviewedLabels, Json.Alike, Json.canon]

/-- The labels are saved and loaded; written twice over, they are not saved. -/
theorem goldLabels_saved_reviewed :
    let _ := cpython
    let _ := reviewDays
    (∃ text loaded, saveGoldLabels reviewedLabels = .ok text ∧ loadGoldLabels text = .ok loaded ∧
      List.Forall₂ (GoldLabel.Related Json.Alike) loaded reviewedLabels) ∧
    ¬ ∃ text, saveGoldLabels (reviewedLabels ++ reviewedLabels) = .ok text := by
  intro _ _
  have hiso : ∀ day : Bool, IsoFormat.fromisoformat (IsoFormat.isoformat day) = some day := by
    decide +kernel
  have hfloats : FloatsOfGold (fun _ => false) reviewedLabels := by
    unfold FloatsOfGold
    decide +kernel
  have hfloats' : FloatsOfGold (fun _ => false) (reviewedLabels ++ reviewedLabels) := by
    unfold FloatsOfGold
    decide +kernel
  obtain ⟨hsaves, -⟩ := goldLabels_saved (p := fun _ => false) floatsReadBack_false hiso
  obtain ⟨hsave, hload⟩ := hsaves reviewedLabels hfloats
  obtain ⟨text, htext⟩ := hsave.mpr isGoldSet_reviewedLabels
  obtain ⟨⟨loaded, hloaded, hequal, -⟩, -⟩ := hload text htext
  refine ⟨⟨text, loaded, htext, hloaded, hequal⟩, (hsaves _ hfloats').1.not.mpr fun hset => ?_⟩
  have htwice := hset.oncePerTask
  simp [reviewedLabels, Json.Alike] at htwice

/-! ## Agreement with the reviewer -/

section

variable {δ : Type} {labels : List (GoldLabel δ)} {verdict : Llm.JudgeVerdict}

/-- The reviewer has labelled the task of the verdict. -/
def Llm.JudgeVerdict.OnGoldTask (verdict : Llm.JudgeVerdict) (labels : List (GoldLabel δ)) : Prop :=
  ∃ gold ∈ labels, gold.taskId = .str verdict.taskId

/-- The verdict is the reviewer's, if there is one. -/
def Llm.JudgeVerdict.MatchesGold (verdict : Llm.JudgeVerdict) (labels : List (GoldLabel δ)) :
    Prop :=
  ∀ gold ∈ labels, gold.taskId = .str verdict.taskId → gold.label = .str verdict.label

/-- No two labels of a gold set are of one task. -/
theorem IsGoldSet.eq_of_taskId (h : IsGoldSet labels) {gold other : GoldLabel δ}
    (hgold : gold ∈ labels) (hother : other ∈ labels) (htask : gold.taskId = other.taskId) :
    gold = other := by
  by_contra hne
  have hsymm : Std.Symm fun gold other : GoldLabel δ => ¬ Json.Alike gold.taskId other.taskId :=
    ⟨fun _ _ hne halike => hne halike.symm⟩
  exact h.oncePerTask.forall hgold hother hne (.of_eq htask)

/-- The label that is found for a verdict. -/
theorem find_gold_eq_some {gold : GoldLabel δ}
    (h : labels.find? (fun gold => Json.pyEq (.str verdict.taskId) gold.taskId) = some gold) :
    gold ∈ labels ∧ gold.taskId = .str verdict.taskId := by
  have hkey := List.find?_some h
  exact ⟨List.mem_of_find?_eq_some h, Json.canon_eq_str_iff.mp (Json.pyEq_iff.mp hkey).symm⟩

/-- **A verdict on a gold task is compared with the label of that task.** -/
theorem IsGoldSet.compareToGold_eq (h : IsGoldSet labels) {gold : GoldLabel δ}
    (hgold : gold ∈ labels) (htask : gold.taskId = .str verdict.taskId) :
    compareToGold labels verdict = some
      ⟨verdict.taskId, verdict.judgeName, verdict.label, gold.label,
        Json.pyEq (.str verdict.label) gold.label⟩ := by
  have hfound : labels.find? (fun gold => Json.pyEq (.str verdict.taskId) gold.taskId) =
      some gold := by
    cases hfind : labels.find? fun gold => Json.pyEq (.str verdict.taskId) gold.taskId with
    | none => exact absurd (List.find?_eq_none.mp hfind gold hgold) (by simp [htask])
    | some other =>
      obtain ⟨hother, htask'⟩ := find_gold_eq_some hfind
      rw [h.eq_of_taskId hother hgold (htask'.trans htask.symm)]
  rw [compareToGold, hfound]
  rfl

/-- Every comparison is of a verdict on a gold task, and says whether the labels are the same. -/
theorem compareToGold_eq_some {comparison : GoldComparison} (h : IsGoldSet labels)
    (hcompared : compareToGold labels verdict = some comparison) :
    verdict.OnGoldTask labels ∧ comparison.judgeName = verdict.judgeName ∧
      (comparison.agrees = true ↔ verdict.MatchesGold labels) := by
  obtain ⟨gold, hfind, rfl⟩ := Option.map_eq_some_iff.mp hcompared
  obtain ⟨hgold, htask⟩ := find_gold_eq_some hfind
  refine ⟨⟨gold, hgold, htask⟩, rfl, ?_⟩
  rw [Json.pyEq_iff, eq_comm]
  refine Json.canon_eq_str_iff.trans ⟨fun heq other hother htask' => ?_, fun hall =>
    hall gold hgold htask⟩
  rwa [h.eq_of_taskId hother hgold (htask'.trans htask.symm)]

end

/-- What is reported of a judge with comparisons. -/
theorem summarizeGoldAgreement_eq_ok_iff {judgeName : String} {comparisons : List GoldComparison}
    {report : GoldAgreementReport} : summarizeGoldAgreement judgeName comparisons = .ok report ↔
      let relevant := comparisons.filter fun comparison => comparison.judgeName = judgeName
      relevant ≠ [] ∧
        ⟨judgeName, relevant, (relevant.filter (·.agrees)).length / relevant.length⟩ = report := by
  rw [summarizeGoldAgreement]
  split_ifs with h
  · exact iff_of_false (by simp) fun hreport => hreport.1 h
  · exact ⟨fun heq => ⟨h, Except.ok.inj heq⟩, fun heq => congrArg Except.ok heq.2⟩

/-- The share of the items that pass a test. -/
theorem share_mem_Icc {α : Type} (p : α → Bool) {items : List α} (h : items ≠ []) :
    (0 : ℚ) ≤ (items.filter p).length / items.length ∧
      ((items.filter p).length / items.length : ℚ) ≤ 1 ∧
      (((items.filter p).length / items.length : ℚ) = 1 ↔ ∀ a ∈ items, p a = true) := by
  have hlength : (0 : ℚ) < items.length := by exact_mod_cast List.length_pos_iff.mpr h
  refine ⟨by positivity, (div_le_one hlength).mpr ?_, ?_⟩
  · exact_mod_cast List.length_filter_le p items
  · rw [div_eq_one_iff_eq hlength.ne', Nat.cast_inj, List.length_filter_eq_length_iff]

/-! ## Judges that agree with the reviewer -/

section

variable {δ : Type} {labels : List (GoldLabel δ)} {judgeName : String}

/-- The comparisons of a judge. -/
theorem mem_relevant_iff {verdicts : List Llm.JudgeVerdict} {comparison : GoldComparison}
    (h : IsGoldSet labels) :
    (comparison ∈ (verdicts.filterMap (compareToGold labels)).filter
        fun comparison => comparison.judgeName = judgeName) ↔
      ∃ verdict ∈ verdicts, verdict.judgeName = judgeName ∧
        compareToGold labels verdict = some comparison := by
  simp only [List.mem_filter, List.mem_filterMap, decide_eq_true_eq]
  constructor
  · rintro ⟨⟨verdict, hverdict, hcompared⟩, hjudge⟩
    exact ⟨verdict, hverdict, (compareToGold_eq_some h hcompared).2.1.symm.trans hjudge, hcompared⟩
  · rintro ⟨verdict, hverdict, hjudge, hcompared⟩
    exact ⟨⟨verdict, hverdict, hcompared⟩,
      (compareToGold_eq_some h hcompared).2.1.trans hjudge⟩

variable [Interpreter] (h : IsGoldSet labels) (verdicts : List Llm.JudgeVerdict)
include h

/-- **A judge has a report exactly if it judged a task of the gold set.** -/
theorem IsGoldSet.exists_report_iff :
    (∃ report, goldAgreement verdicts labels judgeName = .ok report) ↔
      ∃ verdict ∈ verdicts, verdict.judgeName = judgeName ∧ verdict.OnGoldTask labels := by
  rw [goldAgreement, h.compared]
  constructor
  · rintro ⟨report, hreport⟩
    obtain ⟨hne, -⟩ := summarizeGoldAgreement_eq_ok_iff.mp hreport
    obtain ⟨comparison, hcomparison⟩ := List.exists_mem_of_ne_nil _ hne
    obtain ⟨verdict, hverdict, hjudge, hcompared⟩ := (mem_relevant_iff h).mp hcomparison
    exact ⟨verdict, hverdict, hjudge, (compareToGold_eq_some h hcompared).1⟩
  · rintro ⟨verdict, hverdict, hjudge, gold, hgold, htask⟩
    have hmem := (mem_relevant_iff h).mpr
      ⟨verdict, hverdict, hjudge, h.compareToGold_eq hgold htask⟩
    exact ⟨_, summarizeGoldAgreement_eq_ok_iff.mpr ⟨List.ne_nil_of_mem hmem, rfl⟩⟩

/-- **The rate is one exactly if every verdict of the judge on a gold task is the reviewer's.** -/
theorem IsGoldSet.rate_mem_Icc {report : GoldAgreementReport}
    (hreport : goldAgreement verdicts labels judgeName = .ok report) :
    0 ≤ report.agreementRate ∧ report.agreementRate ≤ 1 ∧
      (report.agreementRate = 1 ↔
        ∀ verdict ∈ verdicts, verdict.judgeName = judgeName → verdict.MatchesGold labels) := by
  rw [goldAgreement, h.compared] at hreport
  obtain ⟨hne, rfl⟩ := summarizeGoldAgreement_eq_ok_iff.mp hreport
  obtain ⟨hnonneg, hle, hone⟩ := share_mem_Icc (·.agrees) hne
  refine ⟨hnonneg, hle, hone.trans ⟨fun hall verdict hverdict hjudge gold hgold htask => ?_,
    fun hall comparison hcomparison => ?_⟩⟩
  · have hcompared := h.compareToGold_eq hgold htask
    have hagrees := hall _ ((mem_relevant_iff h).mpr ⟨verdict, hverdict, hjudge, hcompared⟩)
    exact (compareToGold_eq_some h hcompared).2.2.mp hagrees gold hgold htask
  · obtain ⟨verdict, hverdict, hjudge, hcompared⟩ := (mem_relevant_iff h).mp hcomparison
    exact (compareToGold_eq_some h hcompared).2.2.mpr (hall verdict hverdict hjudge)

end

/-- Verdicts with one label are unanimous, by every metric. -/
theorem unanimous_of_label (taskId : String) {verdicts : List Llm.JudgeVerdict} {label : String}
    (hne : verdicts ≠ []) (h : ∀ verdict ∈ verdicts, verdict.label = label) :
    (∃ report, summarizeAgreement taskId verdicts defaultThreshold = .ok report ∧
      report.disagreement = false ∧ report.consensusLabel = some label) ∧
    pairwiseAgreementRate verdicts = 1 := by
  have hlabels : ∀ other ∈ labelsOf verdicts, other = label := List.forall_mem_map.mpr h
  have hlabelsNe : labelsOf verdicts ≠ [] := List.map_eq_nil_iff.not.mpr hne
  have htop : topCount (labelsOf verdicts) = verdicts.length := by
    obtain ⟨other, hother, hcount⟩ := exists_count_eq_topCount hlabelsNe
    rw [← hcount, List.count_eq_length.mpr fun third hthird =>
      (hlabels other hother).trans (hlabels third hthird).symm, List.length_map]
  have hlength : (verdicts.length : ℚ) ≠ 0 := by
    exact_mod_cast (List.length_pos_iff.mpr hne).ne'
  refine ⟨⟨_, summarizeAgreement_eq_ok taskId hne defaultThreshold, ?_, ?_⟩, ?_⟩
  · simp [htop, div_self hlength, defaultThreshold]
  · obtain ⟨other, hother⟩ := List.exists_mem_of_ne_nil _ hlabelsNe
    exact sole_leaders_eq_some_iff.mpr ⟨hlabels other hother ▸ hother,
      fun third hthird hne => absurd (hlabels third hthird) hne⟩
  · by_cases hn : verdicts.length < 2
    · rw [pairwiseAgreementRate, if_pos hn]
    · exact (pairwiseAgreementRate_eq_one_iff (Nat.le_of_not_lt hn)).mpr htop

/-- **Judges that agree with the gold set agree with each other.**  A judge has a report exactly if
it judged a gold task; its rate is a share, and one exactly if all its verdicts on gold tasks are
the reviewer's.  On a gold task whose judges all have rate one the verdicts are unanimous, by every
metric, and the consensus is the reviewer's label. -/
theorem goldAgreement_consensus {δ : Type} [Interpreter] {labels : List (GoldLabel δ)}
    (h : IsGoldSet labels) (verdicts : List Llm.JudgeVerdict) :
    (∀ judgeName, (∃ report, goldAgreement verdicts labels judgeName = .ok report) ↔
      ∃ verdict ∈ verdicts, verdict.judgeName = judgeName ∧ verdict.OnGoldTask labels) ∧
    (∀ judgeName report, goldAgreement verdicts labels judgeName = .ok report →
      0 ≤ report.agreementRate ∧ report.agreementRate ≤ 1 ∧
        (report.agreementRate = 1 ↔
          ∀ verdict ∈ verdicts, verdict.judgeName = judgeName → verdict.MatchesGold labels)) ∧
    ∀ gold ∈ labels, ∀ taskId, gold.taskId = .str taskId →
      (verdicts.filter fun verdict => verdict.taskId = taskId) ≠ [] →
      (∀ verdict ∈ verdicts, verdict.taskId = taskId → ∀ report,
        goldAgreement verdicts labels verdict.judgeName = .ok report →
          report.agreementRate = 1) →
      ∃ label, gold.label = .str label ∧
        (∃ report, summarizeAgreement taskId
            (verdicts.filter fun verdict => verdict.taskId = taskId) defaultThreshold = .ok report ∧
          report.disagreement = false ∧ report.consensusLabel = some label) ∧
        pairwiseAgreementRate (verdicts.filter fun verdict => verdict.taskId = taskId) = 1 := by
  refine ⟨fun judgeName => h.exists_report_iff verdicts,
    fun judgeName report => h.rate_mem_Icc verdicts, ?_⟩
  intro gold hgold taskId htask hne hrates
  have hmatches : ∀ verdict ∈ verdicts.filter fun verdict => verdict.taskId = taskId,
      gold.label = .str verdict.label := by
    intro verdict hverdict
    obtain ⟨hverdict, htaskId⟩ := List.mem_filter.mp hverdict
    have htaskId : verdict.taskId = taskId := of_decide_eq_true htaskId
    have htask' : gold.taskId = .str verdict.taskId := htaskId ▸ htask
    obtain ⟨report, hreport⟩ :=
      (h.exists_report_iff verdicts).mpr ⟨verdict, hverdict, rfl, gold, hgold, htask'⟩
    have hone := hrates verdict hverdict htaskId report hreport
    exact (h.rate_mem_Icc verdicts hreport).2.2.mp hone verdict hverdict rfl gold hgold htask'
  obtain ⟨first, hfirst⟩ := List.exists_mem_of_ne_nil _ hne
  refine ⟨first.label, hmatches first hfirst,
    unanimous_of_label taskId hne fun verdict hverdict => ?_⟩
  exact Json.str.inj ((hmatches verdict hverdict).symm.trans (hmatches first hfirst))

/-- Verdicts on the two tasks: one judge fails the first, which the reviewer passed. -/
def reviewedVerdicts : List Llm.JudgeVerdict :=
  splitVerdicts ++ [⟨"task-2", "tone", "1", "fail", .fin 1, "Rude."⟩,
    ⟨"task-2", "facts", "1", "fail", .fin 1, "It had been shipped."⟩]

/-- The two judges that agree with the reviewer are unanimous on the second task. -/
theorem goldAgreement_consensus_reviewed :
    let _ := cpython
    (∃ report, goldAgreement reviewedVerdicts reviewedLabels "tone" = .ok report ∧
      report.agreementRate = 1) ∧
    (∃ report, goldAgreement reviewedVerdicts reviewedLabels "policy" = .ok report ∧
      report.agreementRate ≠ 1) ∧
    ∃ report, summarizeAgreement "task-2"
        (reviewedVerdicts.filter fun verdict => verdict.taskId = "task-2") defaultThreshold =
          .ok report ∧ report.disagreement = false ∧ report.consensusLabel = some "fail" := by
  intro _
  obtain ⟨hreport, hrate, hconsensus⟩ :=
    goldAgreement_consensus isGoldSet_reviewedLabels reviewedVerdicts
  obtain ⟨tone, htone⟩ := (hreport "tone").mpr (by unfold Llm.JudgeVerdict.OnGoldTask; decide)
  obtain ⟨policy, hpolicy⟩ := (hreport "policy").mpr (by unfold Llm.JudgeVerdict.OnGoldTask; decide)
  have hmatches : ∀ judgeName, judgeName ≠ "policy" → ∀ verdict ∈ reviewedVerdicts,
      verdict.judgeName = judgeName → verdict.MatchesGold reviewedLabels := by
    intro judgeName hne verdict hverdict hjudge
    subst hjudge
    revert verdict
    unfold Llm.JudgeVerdict.MatchesGold
    decide
  have hmismatch : ¬ ∀ verdict ∈ reviewedVerdicts, verdict.judgeName = "policy" →
      verdict.MatchesGold reviewedLabels := by
    unfold Llm.JudgeVerdict.MatchesGold
    decide
  refine ⟨⟨tone, htone, (hrate _ _ htone).2.2.mpr (hmatches _ (by decide))⟩,
    ⟨policy, hpolicy, (hrate _ _ hpolicy).2.2.not.mpr hmismatch⟩, ?_⟩
  have hjudges : ∀ verdict ∈ reviewedVerdicts, verdict.taskId = "task-2" →
      verdict.judgeName ≠ "policy" := by decide
  obtain ⟨label, hlabel, ⟨report, h⟩, -⟩ := hconsensus _ (.tail _ (.head _)) "task-2" rfl
    (by decide) fun verdict hverdict htask report hreport =>
      (hrate _ _ hreport).2.2.mpr (hmatches _ (hjudges verdict hverdict htask))
  obtain rfl : "fail" = label := Json.str.inj hlabel
  exact ⟨report, h⟩

end AgentProof
