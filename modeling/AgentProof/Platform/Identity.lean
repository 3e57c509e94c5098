import AgentProof.Platform.Invariant

/-!
# Platform/Identity — versions are their contents

`create_agent_version` finds a stored version by the hash of its content.  In every store that
operations lead to, that is the version with the same content, when there is one
(`version_identity`): names and commits play no part, the order of the keys of a configuration
plays none, and no two contents are confused.
-/

open Machinery

namespace AgentProof

/-- The configurations of the versions that are created hold no floats. -/
def FloatFreeCalls (performed : List Performed) : Prop :=
  ∀ call ∈ performed, ∀ payload, call.op = .createAgentVersion payload →
    payload.content.config.floatFree = true

variable [Interpreter] [Sha256]

namespace PlatformStore

variable {store store' : PlatformStore}

/-- A stored version has the content of a version that was to be created. -/
theorem Effect.content_of_mem {now : Timestamp} {newId : UUID} {op : StoreOp}
    {outcome : Except PyError StoreReply} (h : Effect now newId store op outcome store')
    {version : AgentVersion} (hmem : version ∈ store'.versions) :
    version ∈ store.versions ∨
      ∃ payload, op = .createAgentVersion payload ∧ version.content = payload.content := by
  cases h with
  | @versionCreated payload created hversion hnew =>
    obtain ⟨entry, hentry, rfl⟩ := List.mem_map.mp hmem
    rcases Dict.mem_set hentry with rfl | hentry
    · exact .inr ⟨payload, rfl, by simp [hversion]⟩
    · exact .inl (List.mem_map_of_mem hentry)
  | _ => exact .inl hmem

/-- The stored configurations hold no floats either. -/
theorem floatFree_of_mem {performed : List Performed} (h : Execution Step {} performed store)
    (hfloats : FloatFreeCalls performed) {version : AgentVersion}
    (hmem : version ∈ store.versions) : version.content.config.floatFree = true := by
  have hall : FloatFreeCalls performed →
      ∀ version ∈ store.versions, version.content.config.floatFree = true := by
    refine h.invariant (P := fun performed store => FloatFreeCalls performed →
      ∀ version ∈ store.versions, version.content.config.floatFree = true)
      (fun _ version hmem => absurd hmem (by simp [versions])) ?_
    intro performed next u u' ih hstep hfloats version hmem
    rcases hstep.effect.2.content_of_mem hmem with hmem | ⟨payload, hop, hcontent⟩
    · exact ih (fun call hcall => hfloats call (List.mem_append_left _ hcall)) version hmem
    · rw [hcontent]
      exact hfloats next (by simp) payload hop
  exact hall hfloats version hmem

/-- The version that is returned is a stored one exactly when the hash is that of a stored one. -/
theorem createAgentVersion_mem_iff (now : Timestamp) (newId : UUID) (payload : AgentVersionCreate) :
    (store.createAgentVersion now newId payload).1 ∈ store.versions ↔
      ∃ existing ∈ store.versions,
        existing.contentHash = computeAgentVersionContentHash payload.content := by
  rw [createAgentVersion]
  cases hfind : store.versions.find? fun existing =>
      existing.contentHash = computeAgentVersionContentHash payload.content with
  | some existing =>
    have hmem := List.mem_of_find?_eq_some hfind
    have hhash := List.find?_some hfind
    exact ⟨fun _ => ⟨existing, hmem, of_decide_eq_true hhash⟩, fun _ => hmem⟩
  | none =>
    have hnone := List.find?_eq_none.mp hfind
    refine ⟨fun hmem => absurd (decide_eq_true rfl) (hnone _ hmem), ?_⟩
    rintro ⟨existing, hmem, hhash⟩
    exact absurd (decide_eq_true hhash) (hnone existing hmem)

/-- **A stored version is returned exactly when one with that content exists.** -/
theorem createAgentVersion_mem_iff_same (hsha : Function.Injective Sha256.hexdigest)
    {performed : List Performed} (h : Execution Step {} performed store)
    (hfloats : FloatFreeCalls performed) {payload : AgentVersionCreate}
    (hpayload : payload.content.config.floatFree = true) (now : Timestamp) (newId : UUID) :
    (store.createAgentVersion now newId payload).1 ∈ store.versions ↔
      ∃ existing ∈ store.versions, existing.content.Same payload.content := by
  have hstore := WellFormed.of_execution h
  rw [createAgentVersion_mem_iff]
  refine exists_congr fun existing => and_congr_right fun hmem => ?_
  rw [hstore.hash_eq existing hmem,
    Content.hash_eq_iff hsha reprFloat_false (floatFree_of_mem h hfloats hmem) hpayload]

end PlatformStore

/-- **A version is its content**: two contents are hashed to one text exactly when their strings are
equal and their configurations the same up to the order of keys; and where SHA-256 confuses no
texts, a version that is created is a stored one exactly when one with that content is stored. -/
theorem version_identity :
    (∀ a b : Content, a.config.floatFree = true → b.config.floatFree = true →
      (a.canonical = b.canonical ↔ a.Same b)) ∧
      (Function.Injective Sha256.hexdigest → ∀ performed store,
        Execution PlatformStore.Step {} performed store → FloatFreeCalls performed →
          ∀ payload : AgentVersionCreate, payload.content.config.floatFree = true →
            ∀ now newId,
              ((store.createAgentVersion now newId payload).1 ∈ store.versions ↔
                ∃ existing ∈ store.versions, existing.content.Same payload.content)) :=
  ⟨fun _ _ => Content.canonical_eq_iff reprFloat_false, fun hsha _ _ h hfloats _ hpayload =>
    PlatformStore.createAgentVersion_mem_iff_same hsha h hfloats hpayload⟩

omit [Interpreter] [Sha256] in
/-- In a session the renamed agent is the one that is stored. -/
theorem version_identity_session :
    let _ := cpython
    let _ := sha256
    ∃ run ∈ PlatformStore.performAll session {},
      (run.2.createAgentVersion 10 "other" renamedAgent).1 ∈ run.2.versions := by
  intro _ _
  have hrun : ∃ run ∈ PlatformStore.performAll session {},
      (run.1.all fun call => match call.op with
        | .createAgentVersion payload => payload.content.config.floatFree
        | _ => true) = true ∧
      ∃ existing ∈ run.2.versions, existing.content.Same renamedAgent.content := by
    decide +kernel
  obtain ⟨run, hperform, hfloats, hexisting⟩ := hrun
  have hfloats : FloatFreeCalls run.1 := by
    intro call hcall payload hop
    have hcall := List.all_eq_true.mp hfloats call hcall
    rw [hop] at hcall
    exact hcall
  refine ⟨run, hperform, (version_identity.2 sha256_injective _ _
    (PlatformStore.execution_performAll hperform) hfloats renamedAgent ?_ 10 "other").mpr hexisting⟩
  decide +kernel

end AgentProof
