import AgentProof.Benchmark.Mutations
import AgentProof.Benchmark.Tasks
import AgentProof.Judges.Containment
import AgentProof.ToolEnvironment.Noise

/-!
# Benchmark/Noise — noise in the tool results does not change what a run does

`inject_tool_result_noise` sets one of four fields on an entity of the seeded state.  No operation
reads these fields, so the same calls on the two states return or raise alike, call by call.

**What passes the parent's contract passes the variant's** (`injectToolResultNoise_simulated`): the
final state has a field more, and the expected final state is only looked for in it.
-/

open Machinery Machinery.Raising

namespace AgentProof

/-! ## Calls, one after the other -/

/-- The call, as a contract sees it. -/
def Call.toolCall (call : Call) : ToolCall :=
  ⟨call.operation.service, call.operation.name, call.arguments⟩

/-- What a run returns or raises. -/
def outcomeOf {α : Type} : EStateM.Result PyError SupportToolEnvironment α → Except PyError α
  | .ok a _ => .ok a
  | .error e _ => .error e

variable [Interpreter]

/-- Each call with what it returns or raises. -/
def answers : List Call → SupportToolEnvironment → List (Call × Except PyError Json)
  | [], _ => []
  | call :: calls, env =>
    let result := call.operation.call call.arguments env
    (call, outcomeOf result) :: answers calls (stateOf result)

/-- **Two answers to one call**: the same exception, or the same value but for the field on the
entity of the call. -/
structure NoiseSite.Answers (site : NoiseSite) (answer answer' : Call × Except PyError Json) :
    Prop where
  call : answer.1 = answer'.1
  outcome : ExceptRelBy Eq
    (site.Returns answer.1.operation.subject.1 (answer.1.arg answer.1.operation.subject.2))
    answer.2 answer'.2

omit [Interpreter] in
/-- Related runs have related outcomes. -/
theorem outcomeOf_related {α β : Type} {R : SupportToolEnvironment → SupportToolEnvironment → Prop}
    {Q : α → β → Prop} {r : EStateM.Result PyError SupportToolEnvironment α}
    {r' : EStateM.Result PyError SupportToolEnvironment β} (h : ResultRelBy R Eq Q r r') :
    ExceptRelBy Eq Q (outcomeOf r) (outcomeOf r') := by
  cases r <;> cases r' <;> first | exact h.1 | exact h.elim

/-- **Every sequence of calls is answered alike**, and leaves environments that differ by the
field. -/
theorem runCalls_noised (site : NoiseSite) : ∀ (calls : List Call)
    {env env' : SupportToolEnvironment}, site.Envs env env' →
      List.Forall₂ site.Answers (answers calls env) (answers calls env') ∧
        site.Envs (runCalls calls env) (runCalls calls env')
  | [], _, _, h => ⟨.nil, h⟩
  | call :: calls, env, env', h => by
    have hcall := site.call_noised call.operation call.arguments env env' h
    obtain ⟨hanswers, henvs⟩ := runCalls_noised site calls hcall.states
    exact ⟨.cons ⟨rfl, outcomeOf_related hcall⟩ hanswers, henvs⟩

/-! ## The final states -/

namespace NoiseSite

variable {site : NoiseSite}

omit [Interpreter] in
/-- The entity with the field contains whatever the entity without it does. -/
theorem Noised.covers {entity entity' : Dict String Json} (h : site.Noised entity entity') :
    (Json.obj entity).Covers (.obj entity') := by
  refine Json.covers_obj fun k v hv => ?_
  by_cases hk : site.field = k
  · subst hk
    cases h.absent.symm.trans hv
  · exact ⟨v, (h.get? hk).trans hv, .refl v⟩

omit [Interpreter] in
/-- **The state with the field contains whatever the state without it does.** -/
theorem States.covers {s t : SupportState} (h : site.States s t) :
    (Json.obj s.snapshot).Covers (.obj t.snapshot) := by
  have hcovers : ∀ c, (s.get c).Covers (t.get c) := fun c => by
    by_cases hc : c = site.collection
    · subst hc
      obtain ⟨entries, entity, entity', hs, hentity, ht, hnoised⟩ := h.entity
      rw [hs, ht]
      refine Json.covers_obj fun k v hv => ?_
      by_cases hk : site.id = k
      · subst hk
        obtain rfl := Option.some.inj (hentity.symm.trans hv)
        exact ⟨_, Dict.get?_set_self _ _ _, hnoised.covers⟩
      · exact ⟨v, (Dict.get?_set_of_ne _ hk _).trans hv, .refl v⟩
    · rw [h.others c hc]
      exact .refl _
  exact Json.covers_of_alike (.cons rfl (hcovers .customers) (.cons rfl (hcovers .orders)
    (.cons rfl (hcovers .refunds) (.cons rfl (hcovers .replacements)
      (.cons rfl (hcovers .tickets) .nil)))))

end NoiseSite

/-- A contract that is passed with a final state is passed with one that covers it. -/
theorem passed_of_covers {task task' : BenchmarkTask} {calls : List ToolCall}
    {finalState finalState' : Dict String Json}
    (hcovers : (Json.obj finalState).Covers (.obj finalState'))
    (hexpected : task'.expectedActions = task.expectedActions)
    (hforbidden : task'.forbiddenActions = task.forbiddenActions)
    (hfinal : task'.expectedFinalState = task.expectedFinalState)
    (h : (scoreActions task calls finalState).passed = true) :
    (scoreActions task' calls finalState').passed = true := by
  rw [passed_iff, BenchmarkTask.Followed] at h ⊢
  rw [hexpected, hforbidden, hfinal]
  exact ⟨h.1, hcovers _ h.2⟩

/-! ## The mutation -/

section Mutation

/-- The entity that is drawn does not carry the field that is drawn. -/
def Noise.Fresh (noise : Noise) (initialState : Dict String Json) : Prop :=
  ∀ entries k entity, Dict.get? initialState noise.collection = some (.obj entries) →
    noise.entityId = .str k → Dict.get? entries k = some (.obj entity) →
    Dict.get? entity noise.field = none

/-- The site is where the noise is. -/
structure Noise.Sited (noise : Noise) (site : NoiseSite) : Prop where
  collection : noise.collection = site.collection.key
  entityId : noise.entityId = .str site.id
  field : noise.field = site.field
  value : noise.value = site.value

omit [Interpreter] in
theorem fromMapping_get (data : Dict String Json) (c : Collection) :
    (SupportState.fromMapping data).get c = (Dict.get? data c.key).getD (.obj []) := by
  cases c <;> rfl

omit [Interpreter] in
theorem Collection.key_injective : Function.Injective Collection.key := by
  intro c c' h
  cases c <;> cases c' <;> first | rfl | exact absurd h (by decide)

omit [Interpreter] in
/-- **The two fresh environments differ by the field.** -/
theorem envs_new {site : NoiseSite} {initialState entries entity : Dict String Json}
    (hentries : Dict.get? initialState site.collection.key = some (.obj entries))
    (hentity : Dict.get? entries site.id = some (.obj entity))
    (hfresh : Dict.get? entity site.field = none) :
    site.Envs (.new initialState) (.new (Dict.set initialState site.collection.key
      (.obj (Dict.set entries site.id (.obj (Dict.set entity site.field site.value)))))) where
  wired := rfl
  wired' := rfl
  states :=
    { others := fun c hc => by
        have hne : site.collection.key ≠ c.key := fun h => hc (Collection.key_injective h).symm
        change (SupportState.fromMapping _).get c = (SupportState.fromMapping _).get c
        rw [fromMapping_get, fromMapping_get, Dict.get?_set_of_ne _ hne]
      entity := by
        refine ⟨entries, entity, _, ?_, hentity, ?_, NoiseSite.noised_set hfresh⟩
        · exact (fromMapping_get _ _).trans (by rw [hentries]; rfl)
        · exact (fromMapping_get _ _).trans (by rw [Dict.get?_set_self]; rfl) }

variable [RandomGenerator]

omit [Interpreter] in
/-- What is drawn has a site. -/
theorem exists_sited {initialState : Dict String Json} {randomSeed : ℤ} {noise : Noise}
    (h : drawNoise initialState randomSeed = .ok (some noise)) {k : String}
    (hid : noise.entityId = .str k) : ∃ site, noise.Sited site := by
  obtain ⟨hcollection, entry, hentry, hfield, hvalue⟩ := drawNoise_eq_ok h
  have hseeded : ∀ name ∈ ["customers", "orders", "tickets"],
      ∃ c : Collection, name = c.key ∧ c ≠ .refunds ∧ c ≠ .replacements := by
    simp only [List.mem_cons, List.not_mem_nil, or_false, forall_eq_or_imp, forall_eq]
    exact ⟨⟨.customers, rfl, by decide⟩, ⟨.orders, rfl, by decide⟩, ⟨.tickets, rfl, by decide⟩⟩
  obtain ⟨c, hc, hne⟩ := hseeded _ hcollection
  have hunserved : ∀ entry ∈ noiseFields, entry.1 ∉ servedFields := by decide
  exact ⟨⟨c, k, entry.1, .str entry.2, hne, hunserved entry hentry⟩, hc, hid, hfield, hvalue⟩

/-- **Noise in a tool result does not change what a run does.**  The two runs answer alike, call by
call; their final states differ by the field; and if the one passes, so does the other. -/
theorem injectToolResultNoise_simulated {task : BenchmarkTask} {randomSeed : ℤ}
    {variant : AdversarialVariant} (h : injectToolResultNoise task randomSeed = .ok variant)
    (happlied : variant.validatorResult = true)
    (hfresh : ∀ noise, drawNoise task.initialState randomSeed = .ok (some noise) →
      noise.Fresh task.initialState) :
    ∃ noise site, drawNoise task.initialState randomSeed = .ok (some noise) ∧
      Noise.Sited noise site ∧
      ∀ calls : List Call,
        let env := runCalls calls (.new task.initialState)
        let env' := runCalls calls (.new variant.task.initialState)
        List.Forall₂ site.Answers (answers calls (.new task.initialState))
            (answers calls (.new variant.task.initialState)) ∧
          site.States env.state env'.state ∧
          ((scoreActions task (calls.map Call.toolCall) env.snapshot).passed = true →
            (scoreActions variant.task (calls.map Call.toolCall) env'.snapshot).passed = true) := by
  rcases injectToolResultNoise_eq_ok h with ⟨-, rfl⟩ | ⟨noise, state, hdraw, hstate, rfl⟩
  · cases happlied
  · obtain ⟨k, entries, entity, hid, hentries, hentity, rfl⟩ := withField_eq_ok.mp hstate
    obtain ⟨site, hsited⟩ := exists_sited hdraw hid
    have hclean := hfresh noise hdraw entries k entity hentries hid hentity
    obtain rfl : k = site.id := Json.str.inj (hid.symm.trans hsited.entityId)
    rw [hsited.collection] at hentries
    rw [hsited.field] at hclean
    have hnew := envs_new hentries hentity hclean
    refine ⟨noise, site, hdraw, hsited, fun calls => ?_⟩
    simp only [applied, hsited.collection, hsited.field, hsited.value]
    obtain ⟨hanswers, henvs⟩ := runCalls_noised site calls hnew
    exact ⟨hanswers, henvs.states, passed_of_covers henvs.states.covers rfl rfl rfl⟩

end Mutation

omit [Interpreter] in
/-- The seed task with a loyalty tier for its customer: what passes the task passes it. -/
theorem injectToolResultNoise_simulated_seed :
    let _ := leastDraws
    let _ := cpython
    ∃ variant, injectToolResultNoise customerRefundWithinPolicy 7 = .ok variant ∧
      ∀ calls : List Call,
        (scoreActions customerRefundWithinPolicy (calls.map Call.toolCall)
            (runCalls calls (.new customerRefundWithinPolicy.initialState)).snapshot).passed =
              true →
          (scoreActions variant.task (calls.map Call.toolCall)
            (runCalls calls (.new variant.task.initialState)).snapshot).passed = true := by
  intro _ _
  have hdraw : drawNoise customerRefundWithinPolicy.initialState 7 =
      .ok (some ⟨"customers", .str "CUST-001", "loyalty_tier", .str "silver"⟩) := by
    decide +kernel
  have hfresh : ∀ noise, drawNoise customerRefundWithinPolicy.initialState 7 = .ok (some noise) →
      noise.Fresh customerRefundWithinPolicy.initialState := by
    intro noise hnoise entries k entity hentries hid hentity
    obtain rfl := Option.some.inj (Except.ok.inj (hdraw.symm.trans hnoise))
    obtain rfl := Json.str.inj hid
    obtain rfl := Json.obj.inj (Option.some.inj hentries)
    obtain rfl := Json.obj.inj (Option.some.inj hentity)
    decide +kernel
  obtain ⟨_, _, -, -, hcalls⟩ := injectToolResultNoise_simulated rfl rfl hfresh
  exact ⟨_, rfl, fun calls => (hcalls calls).2.2⟩

end AgentProof
