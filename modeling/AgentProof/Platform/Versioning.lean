import AgentProof.Platform.Dumps
import AgentProof.Platform.Schemas

/-!
# Platform/Versioning — the identity of a version

A version is identified by what determines its behaviour, not by its name or its commit: the hash is
the SHA-256 of the canonical text of `model`, `system_prompt`, `tool_schema_hash` and `config`.

Equal texts mean equal contents, up to the order of the keys of the configuration
(`Content.canonical_eq_iff`).
-/

open Machinery

namespace AgentProof

/-- SHA-256. -/
class Sha256 where
  /-- `hashlib.sha256(text.encode("utf-8")).hexdigest()` -/
  hexdigest : String → String

/-- What identifies a version.  The column of the configuration takes any JSON value. -/
structure Content where
  model : String
  systemPrompt : String
  toolSchemaHash : String
  config : Json
  deriving DecidableEq

/-- The dictionary whose text is hashed. -/
def Content.json (content : Content) : Json :=
  .obj [("model", .str content.model), ("system_prompt", .str content.systemPrompt),
    ("tool_schema_hash", .str content.toolSchemaHash), ("config", content.config)]

/-- The content of a version. -/
def AgentVersion.content (version : AgentVersion) : Content where
  model := version.model
  systemPrompt := version.systemPrompt
  toolSchemaHash := version.toolSchemaHash
  config := .obj version.config

/-- The content of a version that is to be created. -/
def AgentVersionCreate.content (payload : AgentVersionCreate) : Content where
  model := payload.model
  systemPrompt := payload.systemPrompt
  toolSchemaHash := payload.toolSchemaHash
  config := .obj payload.config

/-- `AgentVersion(**payload.model_dump(), content_hash=content_hash, created_at=now)` -/
def AgentVersionCreate.version (payload : AgentVersionCreate) (contentHash : String) (newId : UUID)
    (now : Timestamp) : AgentVersion where
  id := newId
  name := payload.name
  gitSha := payload.gitSha
  model := payload.model
  systemPrompt := payload.systemPrompt
  toolSchemaHash := payload.toolSchemaHash
  config := payload.config
  contentHash := contentHash
  createdAt := now

@[simp] theorem AgentVersionCreate.version_content (payload : AgentVersionCreate)
    (contentHash : String) (newId : UUID) (now : Timestamp) :
    (payload.version contentHash newId now).content = payload.content := rfl

section

variable [Interpreter]

/-- `canonical` -/
def Content.canonical (content : Content) : String := content.json.dumps

/-- `compute_agent_version_content_hash` -/
def computeAgentVersionContentHash [Sha256] (content : Content) : String :=
  Sha256.hexdigest content.canonical

end

/-! ## Equal contents -/

/-- The three strings are equal, and the configurations are the same up to the order of keys. -/
def Content.Same (a b : Content) : Prop :=
  a.model = b.model ∧ a.systemPrompt = b.systemPrompt ∧ a.toolSchemaHash = b.toolSchemaHash ∧
    Json.Same a.config b.config

instance (a b : Content) : Decidable (Content.Same a b) := inferInstanceAs (Decidable (_ ∧ _))

namespace Content

/-- Contents are the same when the dictionaries are. -/
theorem same_json_iff {a b : Content} : Json.Same a.json b.json ↔ a.Same b := by
  rw [json, json, Json.same_obj_iff]
  constructor
  · intro h
    have hmodel : Option.Rel Json.Same (some (.str a.model)) (some (.str b.model)) := h "model"
    have hprompt : Option.Rel Json.Same (some (.str a.systemPrompt)) (some (.str b.systemPrompt)) :=
      h "system_prompt"
    have htools :
        Option.Rel Json.Same (some (.str a.toolSchemaHash)) (some (.str b.toolSchemaHash)) :=
      h "tool_schema_hash"
    have hconfig : Option.Rel Json.Same (some a.config) (some b.config) := h "config"
    rw [Option.rel_some_some] at hmodel hprompt htools hconfig
    exact ⟨Json.same_str_iff.mp hmodel, Json.same_str_iff.mp hprompt, Json.same_str_iff.mp htools,
      hconfig⟩
  · rintro ⟨hmodel, hprompt, htools, hconfig⟩ k
    have halike : Dict.Alike id Json.Same
        [("model", .str a.model), ("system_prompt", .str a.systemPrompt),
          ("tool_schema_hash", .str a.toolSchemaHash), ("config", a.config)]
        [("model", .str b.model), ("system_prompt", .str b.systemPrompt),
          ("tool_schema_hash", .str b.toolSchemaHash), ("config", b.config)] :=
      .cons rfl (Json.same_str_iff.mpr hmodel) <| .cons rfl (Json.same_str_iff.mpr hprompt) <|
        .cons rfl (Json.same_str_iff.mpr htools) <| .cons rfl hconfig .nil
    exact halike.get? Function.injective_id k

variable {p : PyFloat → Bool}

theorem floatsAll_json {a : Content} (h : a.config.floatsAll p = true) :
    a.json.floatsAll p = true := by
  simp [json, Json.floatsAll, Json.floatsAllFields, h]

/-- **Equal canonical texts are equal contents.** -/
theorem canonical_eq_iff [Interpreter] (hrepr : ReprFloat p) {a b : Content}
    (ha : a.config.floatsAll p = true) (hb : b.config.floatsAll p = true) :
    a.canonical = b.canonical ↔ a.Same b := by
  rw [canonical, canonical,
    Json.dumps_eq_dumps_iff hrepr (floatsAll_json ha) (floatsAll_json hb), same_json_iff]

/-- With SHA-256 taken to be injective, equal hashes are equal contents. -/
theorem hash_eq_iff [Interpreter] [Sha256] (hsha : Function.Injective Sha256.hexdigest)
    (hrepr : ReprFloat p) {a b : Content} (ha : a.config.floatsAll p = true)
    (hb : b.config.floatsAll p = true) :
    computeAgentVersionContentHash a = computeAgentVersionContentHash b ↔ a.Same b := by
  rw [computeAgentVersionContentHash, computeAgentVersionContentHash, hsha.eq_iff,
    canonical_eq_iff hrepr ha hb]

end Content

/-! ### A concrete digest

SHA-256 on the texts that the closed statements of the development hash. -/

/-- An agent that is to be created. -/
def referenceAgent : AgentVersionCreate where
  name := "reference agent"
  gitSha := "1a2b3c4"
  model := "reference"
  systemPrompt := "Resolve the request."
  toolSchemaHash := "sha256:support"
  config := [("temperature", .int 0), ("max_steps", .int 8)]
  name_length := by decide
  gitSha_length := by decide
  model_length := by decide
  systemPrompt_ne := by decide
  toolSchemaHash_length := by decide

/-- The same agent from another commit, under another name, its configuration written in another
order. -/
def renamedAgent : AgentVersionCreate :=
  { referenceAgent with
    name := "renamed agent"
    gitSha := "5d6e7f8"
    config := [("max_steps", .int 8), ("temperature", .int 0)]
    name_length := by decide
    gitSha_length := by decide }

/-- The canonical text of a reference agent, up to its system prompt. -/
def referenceText (systemPrompt : String) : String :=
  "\x7b\"config\":\x7b\"max_steps\":8,\"temperature\":0\x7d,\"model\":\"reference\"," ++
    "\"system_prompt\":\"" ++ systemPrompt ++ "\",\"tool_schema_hash\":\"sha256:support\"\x7d"

/-- Digests of canonical texts. -/
def knownDigests : Dict String String :=
  [(referenceText "Resolve the request.",
    "3dca2726541a5c6a5742f8e744fd3c6aef1fdc708ef6a13de0e340f384793ea1"),
    (referenceText "Refuse the request.",
      "13d595c21b710be25f9fdff260632d7a7ec646c1c9c0adebf476362f55234346")]

/-- SHA-256 where its value is known; elsewhere the text, marked. -/
abbrev sha256 : Sha256 where
  hexdigest text := (Dict.get? knownDigests text).getD ("sha256 of " ++ text)

/-- Marked texts are no digests. -/
theorem sha256_ne {text digest : String} (h : Dict.get? knownDigests text = some digest)
    (other : String) : digest ≠ "sha256 of " ++ other := by
  have hall : ∀ e ∈ knownDigests, e.2.toList.head? ≠ some 's' := by decide +kernel
  rintro rfl
  refine hall _ (Dict.mem_of_get?_eq_some h) ?_
  rw [String.toList_append]
  rfl

theorem sha256_injective : Function.Injective sha256.hexdigest := by
  intro a b h
  change (Dict.get? knownDigests a).getD ("sha256 of " ++ a) =
    (Dict.get? knownDigests b).getD ("sha256 of " ++ b) at h
  cases ha : Dict.get? knownDigests a with
  | none =>
    cases hb : Dict.get? knownDigests b with
    | none =>
      rw [ha, hb, Option.getD_none, Option.getD_none, ← String.toList_inj, String.toList_append,
        String.toList_append] at h
      exact String.toList_inj.mp (List.append_cancel_left h)
    | some digest =>
      rw [ha, hb] at h
      exact absurd h.symm (sha256_ne hb a)
  | some digest =>
    cases hb : Dict.get? knownDigests b with
    | none =>
      rw [ha, hb] at h
      exact absurd h (sha256_ne ha b)
    | some digest' =>
      have hall : ∀ e ∈ knownDigests, ∀ e' ∈ knownDigests, e.2 = e'.2 → e.1 = e'.1 := by
        decide +kernel
      rw [ha, hb] at h
      exact hall _ (Dict.mem_of_get?_eq_some ha) _ (Dict.mem_of_get?_eq_some hb) h

end AgentProof
