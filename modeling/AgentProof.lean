import AgentProof.Machinery.Closed
import AgentProof.Machinery.Codes
import AgentProof.Machinery.Dict
import AgentProof.Machinery.Raising
import AgentProof.Machinery.Prog
import AgentProof.Machinery.Executions
import AgentProof.Python.Floats
import AgentProof.Python.Json
import AgentProof.Python.Errors
import AgentProof.Python.Congruence
import AgentProof.ToolEnvironment.State
import AgentProof.ToolEnvironment.Interpreter
import AgentProof.ToolEnvironment.Services
import AgentProof.ToolEnvironment.Outcomes
import AgentProof.ToolEnvironment.Effects
import AgentProof.ToolEnvironment.Safety
import AgentProof.ToolEnvironment.Congruence
import AgentProof.ToolEnvironment.Shared
import AgentProof.Platform.Schemas
import AgentProof.Platform.Redaction
import AgentProof.Platform.Store
import AgentProof.Platform.Finalization
import AgentProof.Platform.Comparison
import AgentProof.Platform.Queue
import AgentProof.Platform.Trace
import AgentProof.Platform.Decoding
import AgentProof.Platform.Dumps
import AgentProof.Platform.Versioning
import AgentProof.Platform.Operations
import AgentProof.Platform.Invariant
import AgentProof.Platform.History
import AgentProof.Platform.Identity
import AgentProof.Platform.Migration
import AgentProof.Benchmark.Validators
import AgentProof.Runner.ToolProxy
import AgentProof.Runner.Deployment
import AgentProof.Runner.Divergence
import AgentProof.Runner.Evidence
import AgentProof.Runner.Expected
import AgentProof.Runner.Exposure
import AgentProof.Benchmark.Schema
import AgentProof.Benchmark.Tasks
import AgentProof.Runner.Runner
import AgentProof.Runner.ModelClients
import AgentProof.Runner.Rounds
import AgentProof.Judges.Contracts
import AgentProof.Judges.Congruence
import AgentProof.Runner.Shape
import AgentProof.Runner.Raises
import AgentProof.Runner.Record
import AgentProof.Runner.NoOps
import AgentProof.Judges.Orchestration
import AgentProof.Runner.Worker
import AgentProof.Runner.Live
import AgentProof.Runner.Persistence
import AgentProof.Runner.Attempts
import AgentProof.Runner.Retry
import AgentProof.Runner.Workers
import AgentProof.Runner.Completion
import AgentProof.Runner.Delivery
import AgentProof.Runner.Ledger
import AgentProof.Runner.Accounting
import AgentProof.Runner.Replay
import AgentProof.Runner.Isolation
import AgentProof.Runner.Attribution
import AgentProof.Platform.Postgres
import AgentProof.Platform.Creation
import AgentProof.Platform.Mirror
import AgentProof.Platform.Interchange
import AgentProof.Platform.Extensional
import AgentProof.Platform.Noninterference
import AgentProof.Platform.FirstDivergence
import AgentProof.Platform.Hiding
import AgentProof.Platform.Dispositions
import AgentProof.Platform.Alignment
import AgentProof.Frontend.TraceReplay
import AgentProof.Machinery.Backtracking
import AgentProof.Python.Text
import AgentProof.Judges.Responses
import AgentProof.Platform.Loads
import AgentProof.Platform.ReadBack
import AgentProof.Benchmark.Serialization
import AgentProof.Judges.Containment
import AgentProof.Benchmark.Variants
import AgentProof.Benchmark.Mutations
import AgentProof.Python.Random
import AgentProof.Benchmark.Contradictions
import AgentProof.ToolEnvironment.Noise
import AgentProof.Benchmark.Noise
import AgentProof.Platform.Join
import AgentProof.Judges.Mismatches
import AgentProof.Benchmark.Mentions
import AgentProof.ToolEnvironment.Refunds
import AgentProof.Benchmark.Compositions
import AgentProof.Platform.Restoration
import AgentProof.Runner.ReferenceAgent
import AgentProof.Runner.Conversation
import AgentProof.ToolEnvironment.Shift
import AgentProof.Benchmark.Boundary
import AgentProof.Machinery.Matches
import AgentProof.Benchmark.Figures
import AgentProof.Benchmark.Wording
import AgentProof.Judges.WellFormatted
import AgentProof.Machinery.Tally
import AgentProof.Judges.Agreement
import AgentProof.Judges.Gold
import AgentProof.Benchmark.Derivations
import AgentProof.Machinery.Atomicity
import AgentProof.Machinery.Relational
import AgentProof.Platform.Serializability
import AgentProof.Platform.Sessions
import AgentProof.Platform.Refinement
import AgentProof.Runner.Evaluation
import AgentProof.Runner.Reproduction
import AgentProof.Machinery.Paging
import AgentProof.Frontend.Endpoints
import AgentProof.Machinery.Blocks
import AgentProof.Runner.Serving
import AgentProof.Runner.DatabaseWorkers
import AgentProof.Machinery.Recording
import AgentProof.Runner.Transcript
import AgentProof.Machinery.Amid
import AgentProof.Platform.Reads
import AgentProof.Runner.Meanwhile
