import AgentProof.Judges.Containment
import Mathlib.Data.List.Infix
import Mathlib.Logic.Relation

/-!
# Judges/Mismatches — one mismatch for each minimal failing path

A path of keys *fails* where the expected value has something the actual one does not agree with:
nothing stands there, no object where one is expected, or an unequal value.  Below a missing value
everything fails, so a failure counts where no path above it fails.  `_diff_final_state` reports
exactly these, in the order of the expected keys (`diffFinalState_eq_map_minimalFailures`).

Keys that are added outside lists leave what was contained contained (`contained_of_extended`).
-/

open Machinery

namespace AgentProof

namespace Json

/-! ## Paths -/

/-- The value at a path of keys. -/
def at? : Json → List String → Option Json
  | j, [] => some j
  | .obj fields, key :: path => (Dict.get? fields key).bind fun j => j.at? path
  | _, _ :: _ => none

@[simp] theorem at?_nil (j : Json) : j.at? [] = some j := by cases j <;> rfl

@[simp] theorem at?_obj_cons (fields : Dict String Json) (key : String) (path : List String) :
    (obj fields).at? (key :: path) = (Dict.get? fields key).bind fun j => j.at? path := rfl

/-- A value is an object. -/
def isObj : Json → Bool
  | .obj _ => true
  | _ => false

mutual

/-- The paths of a value in the order of its keys, each object before what is under its keys. -/
def paths : Json → List (List String)
  | .obj fields => [] :: pathsFields fields
  | _ => [[]]

/-- `paths` of every field, under its key. -/
def pathsFields : List (String × Json) → List (List String)
  | [] => []
  | (key, j) :: fields => j.paths.map (key :: ·) ++ pathsFields fields

end

theorem mem_pathsFields {path : List String} {fields : List (String × Json)} :
    path ∈ pathsFields fields ↔ ∃ e ∈ fields, ∃ rest ∈ e.2.paths, path = e.1 :: rest := by
  induction fields with
  | nil => simp [pathsFields]
  | cons e fields ih =>
    rw [pathsFields, List.mem_append, ih, List.mem_map, List.exists_mem_cons_iff]
    simp only [eq_comm]

/-- A value that is no object has the empty path only. -/
theorem paths_of_not_obj {j : Json} (h : j.isObj = false) : j.paths = [[]] := by
  cases j with
  | obj fields => exact absurd h (by simp [isObj])
  | _ => simp [paths]

/-- The empty path comes first. -/
theorem exists_paths_eq (j : Json) : ∃ below, j.paths = [] :: below ∧ ∀ path ∈ below, path ≠ [] := by
  cases hobj : j.isObj with
  | false => exact ⟨[], paths_of_not_obj hobj, by simp⟩
  | true =>
    cases j with
    | obj fields =>
      refine ⟨pathsFields fields, by rw [paths], fun path hmem => ?_⟩
      obtain ⟨e, -, rest, -, rfl⟩ := mem_pathsFields.mp hmem
      exact List.cons_ne_nil _ _
    | _ => simp [isObj] at hobj

/-- **The paths of a value** are those at which it has something. -/
theorem mem_paths_iff {j : Json} (hj : j.distinctKeys = true) {path : List String} :
    path ∈ j.paths ↔ (j.at? path).isSome = true := by
  induction j using Json.induct generalizing path with
  | scalar j hscalar => cases j <;> cases path <;> simp_all [paths, at?, scalar]
  | arr items _ => cases path <;> simp [paths, at?]
  | obj fields ih =>
    rw [distinctKeys_obj_iff] at hj
    cases path with
    | nil => simp [paths]
    | cons key path =>
      rw [paths, List.mem_cons, or_iff_right (by simp), mem_pathsFields, at?_obj_cons]
      constructor
      · rintro ⟨⟨key', v⟩, hmem, rest, hrest, heq⟩
        obtain ⟨rfl, rfl⟩ := List.cons.inj heq
        have hread := Dict.get?_eq_some_of_mem hj.1 hmem
        rw [hread, Option.bind_some]
        exact (ih _ _ hread (hj.2 _ hmem)).mp hrest
      · intro hsome
        cases hread : Dict.get? fields key with
        | none => simp [hread] at hsome
        | some v =>
          rw [hread, Option.bind_some] at hsome
          have hmem := Dict.mem_of_get?_eq_some hread
          exact ⟨(key, v), hmem, path, (ih _ _ hread (hj.2 _ hmem)).mpr hsome, rfl⟩

mutual

/-- **No path stands there twice.** -/
theorem nodup_paths : ∀ {j : Json}, j.distinctKeys = true → j.paths.Nodup
  | .obj fields, hj => by
    rw [distinctKeys_obj_iff] at hj
    refine List.nodup_cons.mpr ⟨fun hmem => ?_, nodup_pathsFields hj.1 hj.2⟩
    obtain ⟨e, -, rest, -, heq⟩ := mem_pathsFields.mp hmem
    exact absurd heq (by simp)
  | .null, _ | .bool _, _ | .int _, _ | .float _, _ | .str _, _ | .arr _, _ => by simp [paths]

theorem nodup_pathsFields : ∀ {fields : List (String × Json)}, (fields.map Prod.fst).Nodup →
    (∀ e ∈ fields, e.2.distinctKeys = true) → (pathsFields fields).Nodup
  | [], _, _ => List.nodup_nil
  | (key, j) :: fields, hkeys, hvalues => by
    obtain ⟨hkey, hkeys⟩ := List.nodup_cons.mp hkeys
    obtain ⟨hvalue, hvalues⟩ := List.forall_mem_cons.mp hvalues
    refine List.Nodup.append ((nodup_paths hvalue).map List.cons_injective)
      (nodup_pathsFields hkeys hvalues) fun path hleft hright => ?_
    obtain ⟨rest, -, rfl⟩ := List.mem_map.mp hleft
    obtain ⟨e, he, rest', -, heq⟩ := mem_pathsFields.mp hright
    exact hkey (List.mem_map.mpr ⟨e, he, (List.cons.inj heq).1.symm⟩)

end

/-! ## Where a value fails -/

/-- An object agrees with any object, another value with what is `==` to it. -/
def agrees (expected actual : Json) : Bool :=
  if expected.isObj then actual.isObj else expected.pyEq actual

/-- The actual value has nothing at the path that agrees with the expected one. -/
def fails (expected actual : Json) (path : List String) : Bool :=
  (expected.at? path).any fun e => !(actual.at? path).any fun a => e.agrees a

/-- The path fails, and no path above it does. -/
def minimalFailure (expected actual : Json) (path : List String) : Bool :=
  fails expected actual path &&
    path.inits.all fun above => decide (above = path) || !fails expected actual above

theorem minimalFailure_iff {expected actual : Json} {path : List String} :
    minimalFailure expected actual path = true ↔ fails expected actual path = true ∧
      ∀ above, above <+: path → fails expected actual above = true → above = path := by
  rw [minimalFailure, Bool.and_eq_true, List.all_eq_true]
  refine and_congr_right fun _ => forall_congr' fun above => ?_
  rw [List.mem_inits]
  refine imp_congr_right fun _ => ?_
  cases fails expected actual above <;> simp

/-- The minimal failing paths, in the order of the expected keys. -/
def minimalFailures (expected actual : Json) : List (List String) :=
  expected.paths.filter (minimalFailure expected actual)

/-- Where the whole value fails, only that counts. -/
theorem minimalFailures_of_fails {expected actual : Json} (h : fails expected actual [] = true) :
    minimalFailures expected actual = [[]] := by
  have hroot : minimalFailure expected actual [] = true :=
    minimalFailure_iff.mpr ⟨h, fun above habove _ => List.prefix_nil.mp habove⟩
  have hbelow : ∀ path : List String, path ≠ [] → minimalFailure expected actual path ≠ true :=
    fun path hpath hmin =>
      hpath ((minimalFailure_iff.mp hmin).2 [] List.nil_prefix h).symm
  obtain ⟨below, hpaths, hne⟩ := exists_paths_eq expected
  rw [minimalFailures, hpaths, List.filter_cons_of_pos hroot,
    List.filter_eq_nil_iff.mpr fun path hmem => hbelow path (hne path hmem)]

/-- A value that fails nowhere but as a whole. -/
theorem minimalFailures_of_not_obj {expected actual : Json} (hobj : expected.isObj = false)
    (h : fails expected actual [] = false) : minimalFailures expected actual = [] := by
  have hroot : ¬ minimalFailure expected actual [] = true := fun hmin => by
    simpa [h] using (minimalFailure_iff.mp hmin).1
  rw [minimalFailures, paths_of_not_obj hobj, List.filter_cons_of_neg hroot, List.filter_nil]

section Fields

variable {fields actualFields : Dict String Json} {key : String} {value : Json}

/-- Two objects agree as a whole. -/
theorem fails_obj_nil : fails (.obj fields) (.obj actualFields) [] = false := by
  simp [fails, agrees, isObj]

/-- Under a key that is missing, everything fails. -/
theorem fails_of_missing (hread : Dict.get? fields key = some value)
    (hmissing : Dict.get? actualFields key = none) :
    fails (.obj fields) (.obj actualFields) [key] = true := by
  simp [fails, hread, hmissing]

/-- Under a key that both read, a path fails as it does in what they read. -/
theorem fails_cons (hread : Dict.get? fields key = some value) {actualValue : Json}
    (hactual : Dict.get? actualFields key = some actualValue) (path : List String) :
    fails (.obj fields) (.obj actualFields) (key :: path) = fails value actualValue path := by
  simp [fails, hread, hactual]

theorem minimalFailure_cons (hread : Dict.get? fields key = some value) {actualValue : Json}
    (hactual : Dict.get? actualFields key = some actualValue) (path : List String) :
    minimalFailure (.obj fields) (.obj actualFields) (key :: path) =
      minimalFailure value actualValue path := by
  rw [Bool.eq_iff_iff, minimalFailure_iff, minimalFailure_iff, fails_cons hread hactual]
  refine and_congr_right fun _ => ⟨fun h above habove hfails => ?_, fun h above habove hfails => ?_⟩
  · have hcons := h (key :: above) (List.cons_prefix_cons.mpr ⟨rfl, habove⟩)
      (by rwa [fails_cons hread hactual])
    exact (List.cons.inj hcons).2
  · cases above with
    | nil => simp [fails_obj_nil] at hfails
    | cons key' above =>
      obtain ⟨rfl, hbelow⟩ := List.cons_prefix_cons.mp habove
      rw [fails_cons hread hactual] at hfails
      rw [h above hbelow hfails]

/-- Of the paths under a key that is missing, the key itself counts. -/
theorem filter_minimalFailure_missing (hread : Dict.get? fields key = some value)
    (hmissing : Dict.get? actualFields key = none) :
    (value.paths.map (key :: ·)).filter (minimalFailure (.obj fields) (.obj actualFields)) =
      [[key]] := by
  have hfails := fails_of_missing hread hmissing
  have hkey : minimalFailure (.obj fields) (.obj actualFields) [key] = true := by
    refine minimalFailure_iff.mpr ⟨hfails, fun above habove hfails' => ?_⟩
    cases above with
    | nil => simp [fails_obj_nil] at hfails'
    | cons key' above =>
      obtain ⟨rfl, hbelow⟩ := List.cons_prefix_cons.mp habove
      rw [List.prefix_nil.mp hbelow]
  have hbelow : ∀ path : List String, path ≠ [] →
      ¬ minimalFailure (.obj fields) (.obj actualFields) (key :: path) = true := by
    intro path hpath hmin
    have heq := (minimalFailure_iff.mp hmin).2 [key] (List.cons_prefix_cons.mpr
      ⟨rfl, List.nil_prefix⟩) hfails
    exact hpath (List.cons.inj heq).2.symm
  obtain ⟨below, hpaths, hne⟩ := exists_paths_eq value
  rw [hpaths, List.map_cons, List.filter_cons_of_pos hkey, List.filter_eq_nil_iff.mpr]
  intro path hmem
  obtain ⟨rest, hrest, rfl⟩ := List.mem_map.mp hmem
  exact hbelow rest (hne rest hrest)

end Fields

end Json

/-! ## The texts -/

/-- `f"{path}.{key}" if path else str(key)` -/
def childPath (path key : String) : String := if path = "" then key else path ++ "." ++ key

/-- The text of a path of keys below a path. -/
def pathText : String → List String → String
  | path, [] => path
  | path, key :: keys => pathText (childPath path key) keys

variable [Interpreter]

/-- The mismatch at a path of keys. -/
def mismatchText (expected actual : Json) (path : String) (keys : List String) : String :=
  let place := pathText path keys
  match expected.at? keys, actual.at? keys with
  | some (.obj _), some a =>
    let place := if place = "" then "<root>" else place
    s!"{place}: expected an object, got {a.repr}"
  | some e, some a => s!"{place}: expected {e.repr}, got {a.repr}"
  | _, none => place ++ ": missing from final state"
  | none, _ => ""

theorem mismatchText_cons {fields actualFields : Dict String Json} {key : String}
    {value actualValue : Json} (hread : Dict.get? fields key = some value)
    (hactual : Dict.get? actualFields key = some actualValue) (path : String)
    (keys : List String) :
    mismatchText (.obj fields) (.obj actualFields) path (key :: keys) =
      mismatchText value actualValue (childPath path key) keys := by
  simp only [mismatchText, pathText, Json.at?_obj_cons, hread, hactual, Option.bind_some]
  rfl

/-- A value that is no object has one mismatch at most. -/
theorem diffFinalState_eq_of_not_obj {expected : Json} (hobj : expected.isObj = false)
    (actual : Json) (path : String) : diffFinalState expected actual path =
      (expected.minimalFailures actual).map (mismatchText expected actual path) := by
  cases heq : expected.pyEq actual with
  | true =>
    have hfails : Json.fails expected actual [] = false := by
      simp [Json.fails, Json.agrees, hobj, heq]
    rw [Json.minimalFailures_of_not_obj hobj hfails]
    cases expected with
    | obj fields => exact absurd hobj (by simp [Json.isObj])
    | _ => simp [diffFinalState, heq]
  | false =>
    have hfails : Json.fails expected actual [] = true := by
      simp [Json.fails, Json.agrees, hobj, heq]
    rw [Json.minimalFailures_of_fails hfails]
    cases expected with
    | obj fields => exact absurd hobj (by simp [Json.isObj])
    | _ => simp [diffFinalState, mismatchText, pathText, heq]

mutual

/-- **One mismatch for each minimal failing path**, in the order of the expected keys. -/
theorem diffFinalState_eq_map_minimalFailures : ∀ (expected actual : Json) (path : String),
    expected.distinctKeys = true → diffFinalState expected actual path =
      (expected.minimalFailures actual).map (mismatchText expected actual path)
  | .obj fields, actual, path, hkeys => by
    rw [Json.distinctKeys_obj_iff] at hkeys
    cases hactual : actual.isObj with
    | true =>
      obtain ⟨actualFields, rfl⟩ : ∃ gs : Dict String Json, actual = .obj gs := by
        cases actual <;> simp_all [Json.isObj]
      have hroot : ¬ Json.minimalFailure (.obj fields) (.obj actualFields) [] = true := by
        simp [Json.minimalFailure, Json.fails_obj_nil]
      rw [Json.minimalFailures, Json.paths, List.filter_cons_of_neg hroot]
      simp only [diffFinalState]
      exact diffFields_eq_map_minimalFailures fields fields actualFields path fun e he =>
        ⟨Dict.get?_eq_some_of_mem hkeys.1 he, hkeys.2 e he⟩
    | false =>
      have hfails : Json.fails (.obj fields) actual [] = true := by
        have hobj : (Json.obj fields).isObj = true := rfl
        simp [Json.fails, Json.agrees, hobj, hactual]
      rw [Json.minimalFailures_of_fails hfails]
      cases actual with
      | obj actualFields => exact absurd hactual (by simp [Json.isObj])
      | _ => simp [diffFinalState, mismatchText, pathText]; rfl
  | .null, actual, path, _ => diffFinalState_eq_of_not_obj rfl actual path
  | .bool _, actual, path, _ => diffFinalState_eq_of_not_obj rfl actual path
  | .int _, actual, path, _ => diffFinalState_eq_of_not_obj rfl actual path
  | .float _, actual, path, _ => diffFinalState_eq_of_not_obj rfl actual path
  | .str _, actual, path, _ => diffFinalState_eq_of_not_obj rfl actual path
  | .arr _, actual, path, _ => diffFinalState_eq_of_not_obj rfl actual path

theorem diffFields_eq_map_minimalFailures : ∀ (fields : List (String × Json))
    (all actual : Dict String Json) (path : String),
    (∀ e ∈ fields, Dict.get? all e.1 = some e.2 ∧ e.2.distinctKeys = true) →
    diffFields fields actual path =
      ((Json.pathsFields fields).filter (Json.minimalFailure (.obj all) (.obj actual))).map
        (mismatchText (.obj all) (.obj actual) path)
  | [], _, _, _, _ => rfl
  | (key, value) :: fields, all, actual, path, hfields => by
    obtain ⟨⟨hread, hvalue⟩, hfields⟩ := List.forall_mem_cons.mp hfields
    rw [diffFields, Json.pathsFields, List.filter_append, List.map_append,
      diffFields_eq_map_minimalFailures fields all actual path hfields]
    congr 1
    cases hactual : Dict.get? actual key with
    | none =>
      rw [Json.filter_minimalFailure_missing hread hactual]
      simp [mismatchText, pathText, hread, hactual, childPath]
    | some actualValue =>
      rw [List.filter_map, List.map_map]
      change diffFinalState value actualValue (childPath path key) = _
      rw [diffFinalState_eq_map_minimalFailures value actualValue _ hvalue, Json.minimalFailures]
      have hsame : Json.minimalFailure (.obj all) (.obj actual) ∘ (key :: ·) =
          Json.minimalFailure value actualValue :=
        funext fun keys => Json.minimalFailure_cons hread hactual keys
      rw [hsame]
      exact List.map_congr_left fun keys _ => (mismatchText_cons hread hactual path keys).symm

end

/-! ## Keys that are added -/

namespace Json

/-- **One key is added** to an object, at any depth; inside lists too if `lists`. -/
inductive Extended (lists : Bool) : Json → Json → Prop
  | insert {fields : Dict String Json} {key : String} (value : Json)
      (hnew : Dict.get? fields key = none) :
      Extended lists (.obj fields) (.obj (Dict.set fields key value))
  | field {fields : Dict String Json} {key : String} {value value' : Json}
      (hread : Dict.get? fields key = some value) (h : Extended lists value value') :
      Extended lists (.obj fields) (.obj (Dict.set fields key value'))
  | item {before after : List Json} {value value' : Json} (hlists : lists = true)
      (h : Extended lists value value') :
      Extended lists (.arr (before ++ value :: after)) (.arr (before ++ value' :: after))

omit [Interpreter] in
/-- **Step lemma**: a key outside lists takes nothing away. -/
theorem Extended.covers {actual actual' : Json} (h : Extended false actual actual') :
    actual.Covers actual' := by
  induction h with
  | @insert fields key value hnew =>
    refine covers_obj fun k v hread => ⟨v, ?_, .refl v⟩
    rwa [Dict.get?_set_of_ne]
    rintro rfl
    exact absurd (hnew.symm.trans hread) (by simp)
  | @field fields key value value' hread h ih =>
    refine covers_obj fun k v hread' => ?_
    by_cases hkey : key = k
    · subst hkey
      obtain rfl := Option.some.inj (hread.symm.trans hread')
      exact ⟨value', Dict.get?_set_self _ _ _, ih⟩
    · exact ⟨v, by rwa [Dict.get?_set_of_ne _ hkey], .refl v⟩
  | item hlists => exact absurd hlists (by simp)

omit [Interpreter] in
/-- **Run lemma**: keys outside lists take nothing away. -/
theorem covers_of_extended {actual actual' : Json}
    (h : Relation.ReflTransGen (Extended false) actual actual') : actual.Covers actual' := by
  induction h with
  | refl => exact .refl _
  | tail _ hstep ih => exact fun a ha => hstep.covers a (ih a ha)

end Json

/-! ## The verdict -/

omit [Interpreter] in
/-- Which calls were made decides whether a contract is followed, not how often or when. -/
theorem followed_congr {task : BenchmarkTask} {calls calls' : List ToolCall}
    (h : ∀ call, call ∈ calls ↔ call ∈ calls') : task.Followed calls ↔ task.Followed calls' := by
  simp only [BenchmarkTask.Followed, h]

omit [Interpreter] in
/-- The minimal failing paths stand among the paths, in their order. -/
theorem Json.mem_minimalFailures_iff {expected actual : Json} (h : expected.distinctKeys = true)
    {keys : List String} : keys ∈ expected.minimalFailures actual ↔
      expected.minimalFailure actual keys = true := by
  rw [Json.minimalFailures, List.mem_filter, and_iff_right_iff_imp, Json.mem_paths_iff h]
  intro hmin
  have hfails := (Json.minimalFailure_iff.mp hmin).1
  rw [Json.fails] at hfails
  cases hat : expected.at? keys with
  | none => simp [hat] at hfails
  | some e => rfl

/-- **The diff decides containment.**  It is empty exactly for a value that is contained, and
otherwise has one mismatch for each minimal failing path, in the order of the expected keys.  Keys
added outside lists keep it empty, containment is reflexive and transitive, and a run passes exactly
when its diff is empty and its calls follow the contract, however often and in whatever order they
were made. -/
theorem diffFinalState_decides_containment :
    (∀ expected actual path,
      diffFinalState expected actual path = [] ↔ expected.contained actual = true) ∧
    (∀ expected actual path, expected.distinctKeys = true →
      diffFinalState expected actual path =
        (expected.minimalFailures actual).map (mismatchText expected actual path) ∧
      (expected.minimalFailures actual).Nodup ∧
      List.Sublist (expected.minimalFailures actual) expected.paths ∧
      ∀ keys, keys ∈ expected.minimalFailures actual ↔
        expected.minimalFailure actual keys = true) ∧
    (∀ expected actual actual' path, Relation.ReflTransGen (Json.Extended false) actual actual' →
      diffFinalState expected actual path = [] → diffFinalState expected actual' path = []) ∧
    (∀ j : Json, j.distinctKeys = true → j.contained j = true) ∧
    (∀ a b c : Json, a.contained b = true → b.contained c = true → a.contained c = true) ∧
    (∀ (task : BenchmarkTask) calls finalState,
      (scoreActions task calls finalState).passed = true ↔
        diffFinalState (.obj task.expectedFinalState) (.obj finalState) "" = [] ∧
        (∀ expected ∈ task.expectedActions, ∃ call ∈ calls, expected.metBy call = true) ∧
        ∀ forbidden ∈ task.forbiddenActions, ∀ call ∈ calls, forbidden.forbids call = false) ∧
    ∀ (task : BenchmarkTask) calls calls' finalState, (∀ call, call ∈ calls ↔ call ∈ calls') →
      (scoreActions task calls finalState).passed =
        (scoreActions task calls' finalState).passed := by
  refine ⟨diffFinalState_eq_nil_iff_contained, fun expected actual path hkeys =>
      ⟨diffFinalState_eq_map_minimalFailures expected actual path hkeys,
        (Json.nodup_paths hkeys).filter _, List.filter_sublist, fun keys =>
        Json.mem_minimalFailures_iff hkeys⟩,
    fun expected actual actual' path hextended hempty => ?_, fun _ => Json.contained_refl,
    fun _ _ _ => Json.contained_trans, fun task calls finalState => ?_,
    fun task calls calls' finalState hcalls => ?_⟩
  · rw [diffFinalState_eq_nil_iff_contained] at hempty ⊢
    exact Json.covers_of_extended hextended expected hempty
  · rw [passed_iff, diffFinalState_eq_nil_iff_contained, and_comm]
    rfl
  · rw [Bool.eq_iff_iff, passed_iff, passed_iff, followed_congr hcalls]

omit [Interpreter] in
/-- **A list is contained only in what is `==` to it**: a key added to an object in a list is a
mismatch. -/
theorem not_diffFinalState_extended :
    let _ := cpython
    ¬ ∀ expected actual actual' path, Relation.ReflTransGen (Json.Extended true) actual actual' →
      diffFinalState expected actual path = [] → diffFinalState expected actual' path = [] := by
  intro _ hclaim
  have hinsert : Json.Extended true (.obj []) (.obj [("id", .str "REF-1")]) :=
    @Json.Extended.insert true [] "id" (.str "REF-1") rfl
  have hitem : Json.Extended true (.arr [.obj []]) (.arr [.obj [("id", .str "REF-1")]]) :=
    @Json.Extended.item true [] [] _ _ rfl hinsert
  have hextended : Json.Extended true (.obj [("refunds", .arr [.obj []])])
      (.obj [("refunds", .arr [.obj [("id", .str "REF-1")]])]) :=
    @Json.Extended.field true [("refunds", .arr [.obj []])] "refunds" _ _ rfl hitem
  have hempty := hclaim (.obj [("refunds", .arr [.obj []])]) _ _ "" (.single hextended)
    (by decide +kernel)
  exact absurd hempty (by decide +kernel)

end AgentProof
