import AgentProof.Python.Json

/-!
# Benchmark/Schema — benchmark tasks

A task seeds the environment, and its contract says which tool calls a run has to make, which it
must not make, and what the final state has to contain.
-/

open Machinery

namespace AgentProof

/-- `benchmark.schema.Difficulty` -/
inductive Difficulty where
  | easy
  | medium
  | hard
  deriving DecidableEq

/-- `benchmark.schema.ExpectedAction` -/
structure ExpectedAction where
  service : String
  operation : String
  arguments : Dict String Json := []
  deriving DecidableEq

/-- `benchmark.schema.ForbiddenAction` -/
structure ForbiddenAction where
  service : String
  operation : String
  reason : String
  arguments : Dict String Json := []
  deriving DecidableEq

/-- `benchmark.schema.BenchmarkTask` -/
structure BenchmarkTask where
  taskId : String
  input : String
  initialState : Dict String Json
  expectedActions : List ExpectedAction
  forbiddenActions : List ForbiddenAction
  expectedFinalState : Dict String Json
  tags : List String
  difficulty : Difficulty
  deriving DecidableEq

/-- The dictionaries of a task are dictionaries: none repeats a key, at any depth. -/
structure BenchmarkTask.WellKeyed (task : BenchmarkTask) : Prop where
  initialState : (Json.obj task.initialState).distinctKeys = true
  expected : ∀ action ∈ task.expectedActions, (Json.obj action.arguments).distinctKeys = true
  forbidden : ∀ action ∈ task.forbiddenActions, (Json.obj action.arguments).distinctKeys = true
  expectedFinalState : (Json.obj task.expectedFinalState).distinctKeys = true

/-- `benchmark.schema.AdversarialVariant` -/
structure AdversarialVariant where
  task : BenchmarkTask
  parentTaskId : String
  mutationType : String
  randomSeed : ℤ
  validatorResult : Bool
  deriving DecidableEq

end AgentProof
