import AgentProof.Runner.Runner

/-!
# Runner/ModelClients — the deterministic model clients
-/

open Machinery

namespace AgentProof

/-- `ScriptedModelClient`: the state is the rest of the script. -/
def scriptedModelClient : ModelClient (List ModelOutcome) where
  complete
    | [], _, _, _ => (.raised (.other "AssertionError" "ScriptedModelClient script exhausted"), [])
    | outcome :: script, _, _, _ => (outcome, script)

/-- `ReferenceAgentModelClient`: the state is the number of actions walked. -/
def referenceAgentModelClient (task : BenchmarkTask) : ModelClient ℕ where
  complete step _ _ _ :=
    match task.expectedActions[step]? with
    | some action =>
      (.reply {
        finishReason := "tool_calls"
        toolCalls := [{
          callId := s!"c{step + 1}"
          service := action.service
          operation := action.operation
          arguments := action.arguments }] }, step + 1)
    | none =>
      (.reply { finishReason := "stop", content := some "Resolved according to policy." }, step)

end AgentProof
