import AgentProof.Machinery.Relational
import AgentProof.Platform.FirstDivergence
import AgentProof.Runner.Evaluation

/-!
# Runner/Reproduction — a run on another machine

A machine gives a run its ids and its clock readings.  What it gives is stamped on the trace and
goes nowhere else: a trace is a `Blueprint` that the machine stamped, and the blueprint, like
everything else a run leaves behind, is the same on every machine (`runTask_reproducible`).  This is
so of a client that calls no method the services inherit from `object`, which may return an address.

So an evaluation of one agent against itself, on whatever machines, in whatever order and with
whatever retries, shows neither a regression nor an improvement (`compareRuns_itself`).
-/

open Machinery Machinery.Raising

namespace AgentProof

/-! ## What a machine stamps -/

/-- A step, but for what the machine gives it; a parent is named by its position. -/
structure StepShape where
  payload : StepPayload
  parent : Option ℕ := none
  timed : Bool := false

/-- The step at a position, on a machine. -/
def StepShape.stamp (host : Host) (n : ℕ) (shape : StepShape) : TraceStep where
  id := host.stepId n
  sequenceNo := n
  payload := shape.payload
  parentStepId := shape.parent.map host.stepId
  durationMs := if shape.timed then some (host.durationMs n) else none

/-- **A trace before it is stamped**: the shapes of its steps, each after its parent. -/
structure Blueprint where
  shapes : List StepShape
  earlier : ∀ (n : ℕ) (shape : StepShape), shapes[n]? = some shape → ∀ p ∈ shape.parent, p < n

namespace Blueprint

/-- The blueprint of the empty trace. -/
def empty : Blueprint := ⟨[], by simp⟩

/-- One step more, below an earlier one. -/
def push (blueprint : Blueprint) (shape : StepShape)
    (h : ∀ p ∈ shape.parent, p < blueprint.shapes.length) : Blueprint where
  shapes := blueprint.shapes ++ [shape]
  earlier n shape' hshape p hp := by
    rcases Nat.lt_or_ge n blueprint.shapes.length with hlt | hge
    · rw [List.getElem?_append_left hlt] at hshape
      exact blueprint.earlier n shape' hshape p hp
    · rw [List.getElem?_append_right hge] at hshape
      obtain rfl := List.mem_singleton.mp (List.mem_of_getElem? hshape)
      exact (h p hp).trans_le hge

/-- The steps of the trace, on a machine. -/
def stamp (host : Host) (blueprint : Blueprint) : List TraceStep :=
  blueprint.shapes.mapIdx (StepShape.stamp host)

variable {host : Host} {blueprint : Blueprint}

theorem length_stamp : (blueprint.stamp host).length = blueprint.shapes.length :=
  List.length_mapIdx

@[simp] theorem length_push {shape : StepShape}
    (h : ∀ p ∈ shape.parent, p < blueprint.shapes.length) :
    (blueprint.push shape h).shapes.length = blueprint.shapes.length + 1 :=
  List.length_append

theorem stamp_push {shape : StepShape} (h : ∀ p ∈ shape.parent, p < blueprint.shapes.length) :
    (blueprint.push shape h).stamp host =
      blueprint.stamp host ++ [shape.stamp host blueprint.shapes.length] := by
  rw [stamp, push, List.mapIdx_concat, stamp]

/-- A step of the trace is there to be a parent. -/
theorem hasStep {trace : Trace} (htrace : trace.steps = blueprint.stamp host) {n : ℕ}
    (h : n < blueprint.shapes.length) : trace.hasStep (host.stepId n) = true := by
  rw [Trace.hasStep, htrace, List.any_eq_true]
  exact ⟨_, List.mem_mapIdx.mpr ⟨n, h, rfl⟩, decide_eq_true rfl⟩

/-- The blueprint of the trace as it is read later. -/
def settle (blueprint : Blueprint) (env : SupportToolEnvironment) : Blueprint where
  shapes := blueprint.shapes.map fun shape => { shape with payload := shape.payload.settle env }
  earlier n shape' hshape p hp := by
    rw [List.getElem?_map, Option.map_eq_some_iff] at hshape
    obtain ⟨shape, hshape, rfl⟩ := hshape
    exact blueprint.earlier n shape hshape p hp

/-- **It is stamped before or after.** -/
theorem settle_stamp (blueprint : Blueprint) (host : Host) (env : SupportToolEnvironment) :
    (blueprint.settle env).stamp host = (blueprint.stamp host).map (.settle env) := by
  refine List.ext_getElem? fun n => ?_
  simp only [stamp, settle, List.getElem?_mapIdx, List.getElem?_map, Option.map_map]
  rfl

end Blueprint

/-! ## A client that calls no inherited method

What a method of `object` returns may be the machine's: `__repr__` and `__hash__` go by the address
of the service. -/

/-- The calls the model asked for. -/
def ModelOutcome.calls : ModelOutcome → List ToolCallRequest
  | .reply r => r.toolCalls
  | _ => []

/-- The client stays in a set of states, in which it asks for such calls only. -/
def ModelClient.AsksWithin {σ : Type} (client : ModelClient σ) (P : σ → Prop)
    (Q : ToolCallRequest → Prop) : Prop :=
  ∀ c, P c → ∀ messages model params, P (client.complete c messages model params).2 ∧
    ∀ call ∈ (client.complete c messages model params).1.calls, Q call

/-- **From this state on the client asks for such calls only**, whatever it is handed. -/
def ModelClient.AsksOnly {σ : Type} (client : ModelClient σ) (c : σ) (Q : ToolCallRequest → Prop) :
    Prop :=
  ∃ P, P c ∧ client.AsksWithin P Q

/-- The call is of no inherited method. -/
def ToolCallRequest.NotInherited (call : ToolCallRequest) : Prop :=
  ¬ Inherited call.service call.operation

instance (call : ToolCallRequest) : Decidable call.NotInherited := inferInstanceAs (Decidable (¬ _))

section

variable [Interpreter]

/-- Such calls do the same on both machines. -/
def AnswersAlike (host host' : Host) (Q : ToolCallRequest → Prop) : Prop :=
  ∀ call, Q call → execute host call.service call.operation call.arguments =
    execute host' call.service call.operation call.arguments

/-- **A method that is not inherited does the same on every machine.** -/
theorem answersAlike_notInherited (host host' : Host) :
    AnswersAlike host host' ToolCallRequest.NotInherited := by
  intro call hcall
  rw [execute, execute]
  cases hresolve : resolve call.service call.operation with
  | error e => rfl
  | ok method =>
    cases method with
    | operation op => rfl
    | init => rfl
    | inherited name => exact absurd (resolve_eq_inherited hresolve).1 hcall

end

/-! ## Two machines -/

section

variable {σ : Type} {host host' : Host} {client : ModelClient σ} {version version' : AgentVersion}
  {P : σ → Prop} {Q : ToolCallRequest → Prop}

/-- Two runs on two machines are at the same point: their traces are one blueprint, of so many steps
at least. -/
structure Stamped (P : σ → Prop) (host host' : Host) (n : ℕ) (s t : RunState σ) : Prop where
  within : P s.client
  client : s.client = t.client
  environment : s.proxy.environment = t.proxy.environment
  trace : ∃ blueprint : Blueprint, n ≤ blueprint.shapes.length ∧
    s.proxy.trace.steps = blueprint.stamp host ∧ t.proxy.trace.steps = blueprint.stamp host'

/-- Two runs raised the same, and left the client alike. -/
def RaisedAlike (e e' : PyError) (s t : RunState σ) : Prop := e = e' ∧ s.client = t.client

theorem Stamped.mono {n m : ℕ} {s t : RunState σ} (h : Stamped P host host' n s t) (hm : m ≤ n) :
    Stamped P host host' m s t :=
  ⟨h.within, h.client, h.environment, h.trace.imp fun _ htrace => ⟨hm.trans htrace.1, htrace.2⟩⟩

/-- A step that both have is there to be a parent. -/
theorem Stamped.hasStep {n m : ℕ} {s t : RunState σ} (h : Stamped P host host' n s t) (hm : m < n) :
    s.proxy.trace.hasStep (host.stepId m) = true ∧
      t.proxy.trace.hasStep (host'.stepId m) = true := by
  obtain ⟨blueprint, hn, hs, ht⟩ := h.trace
  exact ⟨blueprint.hasStep hs (hm.trans_le hn), blueprint.hasStep ht (hm.trans_le hn)⟩

/-- The trace of a run, with one step more. -/
def RunState.push (s : RunState σ) (host : Host) (payload : StepPayload) (parent : Option ℕ)
    (timed : Bool) : RunState σ where
  client := s.client
  proxy := { s.proxy with
    trace := (s.proxy.trace.push host payload (parent.map host.stepId)
      (if timed then some (host.durationMs s.proxy.trace.steps.length) else none)).2 }

/-- **One step more on both machines**, at one position and below one parent. -/
theorem Stamped.push {n : ℕ} {s t : RunState σ} (h : Stamped P host host' n s t)
    (payload : StepPayload) {parent : Option ℕ} (hparent : ∀ p ∈ parent, p < n) (timed : Bool) :
    ∃ m, n ≤ m ∧ s.proxy.trace.steps.length = m ∧ t.proxy.trace.steps.length = m ∧
      Stamped P host host' (m + 1) (s.push host payload parent timed)
        (t.push host' payload parent timed) := by
  obtain ⟨blueprint, hn, hs, ht⟩ := h.trace
  have hlength : s.proxy.trace.steps.length = blueprint.shapes.length := by
    rw [hs, Blueprint.length_stamp]
  have hlength' : t.proxy.trace.steps.length = blueprint.shapes.length := by
    rw [ht, Blueprint.length_stamp]
  refine ⟨_, hn, hlength, hlength', h.within, h.client, h.environment,
    blueprint.push ⟨payload, parent, timed⟩ fun p hp => (hparent p hp).trans_le hn, ?_, ?_, ?_⟩
  · rw [Blueprint.length_push]
  · rw [Blueprint.stamp_push, ← hs, ← hlength]
    rfl
  · rw [Blueprint.stamp_push, ← ht, ← hlength']
    rfl

/-- A top-level step is recorded on both machines, at one position. -/
theorem log_stamped (n : ℕ) (payload : StepPayload) :
    Coupled (Stamped P host host' n) (log host payload none) (log host' payload none)
      (fun step step' s t => ∃ m, step.id = host.stepId m ∧ step'.id = host'.stepId m ∧
        n ≤ m ∧ Stamped P host host' (m + 1) s t) RaisedAlike := by
  intro s t hst
  have hnone : ∀ p ∈ (none : Option ℕ), p < n := nofun
  obtain ⟨m, hm, hlength, hlength', hpush⟩ := hst.push payload hnone false
  exact .ok ⟨m, congrArg host.stepId hlength, congrArg host'.stepId hlength', hm, hpush⟩

/-- And so is a step below an earlier one. -/
theorem log_stamped_below {n m : ℕ} (hm : m < n) (payload : StepPayload) :
    Coupled (Stamped P host host' n) (log host payload (some (host.stepId m)))
      (log host' payload (some (host'.stepId m))) (fun _ _ => Stamped P host host' n)
      RaisedAlike := by
  intro s t hst
  obtain ⟨hstep, hstep'⟩ := hst.hasStep hm
  have hsome : ∀ p ∈ some m, p < n := fun p hp => Option.some.inj hp ▸ hm
  obtain ⟨m', hm', -, -, hpush⟩ := hst.push payload hsome false
  rw [log, log, onProxy, onProxy, zoom, zoom,
    TracedToolProxy.appendStep_of_hasStep host payload none hstep,
    TracedToolProxy.appendStep_of_hasStep host' payload none hstep']
  exact .ok (hpush.mono (hm'.trans (Nat.le_succ _)))

/-- The client answers alike. -/
theorem complete_stamped (hclient : client.AsksWithin P Q) (hmodel : version.model = version'.model)
    (hconfig : version.config = version'.config) (n : ℕ) (messages : Messages) :
    Coupled (Stamped P host host' n) (complete client version messages)
      (complete client version' messages)
      (fun outcome outcome' s t => outcome = outcome' ∧
        (∀ call ∈ outcome.calls, Q call) ∧
        Stamped P host host' n s t)
      RaisedAlike := by
  intro s t hst
  obtain ⟨hwithin, hcalls⟩ := hclient s.client hst.within messages version.model version.config
  rw [hst.client] at hwithin hcalls
  simp only [complete, ← hmodel, ← hconfig, hst.client]
  exact .ok ⟨rfl, hcalls, hwithin, rfl, hst.environment, hst.trace⟩

/-- **A request is answered alike**, however often it is retried. -/
theorem completeWithRetries_stamped (hclient : client.AsksWithin P Q)
    (hmodel : version.model = version'.model) (hconfig : version.config = version'.config) {n m : ℕ}
    (hm : m < n) (messages : Messages) (remaining : ℕ) : ∀ attempt : ℕ,
    Coupled (Stamped P host host' n)
      (completeWithRetries host client version messages (host.stepId m) remaining attempt)
      (completeWithRetries host' client version' messages (host'.stepId m) remaining attempt)
      (fun reply reply' s t => reply = reply' ∧
        (∀ call ∈ reply.toolCalls, Q call) ∧
        Stamped P host host' n s t) RaisedAlike := by
  induction remaining with
  | zero =>
    intro attempt
    rw [completeWithRetries, completeWithRetries]
    refine (complete_stamped hclient hmodel hconfig n messages).bind ?_
    rintro outcome outcome' s t ⟨rfl, hcalls, hst⟩
    cases outcome with
    | reply reply => exact .ok ⟨rfl, hcalls, hst⟩
    | raised e => exact .error ⟨rfl, hst.client⟩
    | transient message =>
      exact (log_stamped_below hm _).bind
        (fun _ _ => .throw fun s t hst => ⟨rfl, hst.client⟩) s t hst
  | succ remaining ih =>
    intro attempt
    rw [completeWithRetries, completeWithRetries]
    refine (complete_stamped hclient hmodel hconfig n messages).bind ?_
    rintro outcome outcome' s t ⟨rfl, hcalls, hst⟩
    cases outcome with
    | reply reply => exact .ok ⟨rfl, hcalls, hst⟩
    | raised e => exact .error ⟨rfl, hst.client⟩
    | transient message =>
      exact (log_stamped_below hm _).bind (fun _ _ => ih (attempt + 1)) s t hst

variable [Interpreter]

omit [Interpreter] in
/-- A call that was recorded and answered, on both machines. -/
theorem Stamped.invoked {n : ℕ} {s t : RunState σ} (h : Stamped P host host' n s t)
    (callId service operation : String) (arguments : Dict String Json) (payload : StepPayload)
    (env : SupportToolEnvironment) :
    Stamped P host host' n
      { s with
        proxy := s.proxy.invoked host callId service operation arguments payload env }
      { t with
        proxy := t.proxy.invoked host' callId service operation arguments payload env } := by
  have hnone : ∀ p ∈ (none : Option ℕ), p < n := nofun
  obtain ⟨m, hm, hs, ht, hcall⟩ :=
    h.push (.toolCall callId service operation arguments) hnone false
  have hsome : ∀ p ∈ some m, p < m + 1 := fun p hp => Option.some.inj hp ▸ Nat.lt_succ_self m
  obtain ⟨m', hm', -, -, hclosing⟩ := hcall.push payload hsome true
  obtain ⟨blueprint, hlength, hsteps, hsteps'⟩ := hclosing.trace
  refine ⟨h.within, h.client, rfl, blueprint, ?_, hsteps ▸ ?_, hsteps' ▸ ?_⟩
  · omega
  · simp [TracedToolProxy.invoked, TracedToolProxy.callStep, TracedToolProxy.closingStep,
      RunState.push, Trace.push, hs, Trace.nextStep]
  · simp [TracedToolProxy.invoked, TracedToolProxy.callStep, TracedToolProxy.closingStep,
      RunState.push, Trace.push, ht, Trace.nextStep]

/-- **A call does the same on both machines**, if it is one they answer alike. -/
theorem invoke_stamped (halike : AnswersAlike host host' Q) (n : ℕ) {call : ToolCallRequest}
    (hcall : Q call) :
    Coupled (Stamped P host host' n)
      (onProxy (TracedToolProxy.invoke host call.callId call.service call.operation call.arguments))
      (onProxy
        (TracedToolProxy.invoke host' call.callId call.service call.operation call.arguments))
      (fun step step' s t => step.payload = step'.payload ∧ Stamped P host host' n s t)
      RaisedAlike := by
  intro s t hst
  rw [onProxy, onProxy, zoom, zoom]
  have henv := hst.environment
  have hhost : ∀ {r}, execute host call.service call.operation call.arguments s.proxy.environment =
      r → execute host' call.service call.operation call.arguments t.proxy.environment = r := by
    rw [henv, halike call hcall]
    exact id
  cases hrun : execute host call.service call.operation call.arguments s.proxy.environment with
  | ok value env =>
    rw [TracedToolProxy.invoke_of_ok hrun, TracedToolProxy.invoke_of_ok (hhost hrun)]
    exact .ok ⟨rfl, hst.invoked _ _ _ _ _ env⟩
  | error e env =>
    cases hcaught : e.caughtByProxy with
    | true =>
      rw [TracedToolProxy.invoke_of_caught hrun hcaught,
        TracedToolProxy.invoke_of_caught (hhost hrun) hcaught]
      exact .ok ⟨rfl, hst.invoked _ _ _ _ _ env⟩
    | false =>
      obtain ⟨proxy, hraised⟩ : ∃ proxy, TracedToolProxy.invoke host call.callId call.service
          call.operation call.arguments s.proxy = .error e proxy :=
        TracedToolProxy.invoke_of_raised hrun hcaught
      obtain ⟨proxy', hraised'⟩ : ∃ proxy, TracedToolProxy.invoke host' call.callId call.service
          call.operation call.arguments t.proxy = .error e proxy :=
        TracedToolProxy.invoke_of_raised (hhost hrun) hcaught
      rw [hraised, hraised']
      exact .error ⟨rfl, hst.client⟩

theorem invokeCalls_stamped (halike : AnswersAlike host host' Q) (n : ℕ)
    {calls : List ToolCallRequest} (hcalls : ∀ call ∈ calls, Q call) : ∀ messages : Messages,
    Coupled (Stamped P host host' n) (invokeCalls host calls messages)
      (invokeCalls host' calls messages)
      (fun messages messages' s t => messages = messages' ∧ Stamped P host host' n s t)
      RaisedAlike := by
  induction calls with
  | nil => exact fun messages => .pure fun s t hst => ⟨rfl, hst⟩
  | cons call calls ih =>
    intro messages
    rw [invokeCalls, invokeCalls]
    refine (invoke_stamped halike n (hcalls call (.head _))).bind ?_
    rintro step step' s t ⟨hpayload, hst⟩
    rw [hpayload]
    exact Coupled.lift_same _ (fun e s t hst => ⟨rfl, hst.client⟩)
      (fun content => ih (fun call hcall => hcalls call (.tail _ hcall)) _) s t hst

/-- **Run lemma**: the rounds are the same on both machines. -/
theorem runRounds_stamped (halike : AnswersAlike host host' Q) (hclient : client.AsksWithin P Q)
    (hmodel : version.model = version'.model) (hconfig : version.config = version'.config)
    (maxSteps maxModelRetries remaining : ℕ) :
    ∀ (messages : Messages) (inputTokens outputTokens : ℕ),
      Coupled (Stamped P host host' 0)
        (runRounds host client version maxSteps maxModelRetries remaining messages inputTokens
          outputTokens)
        (runRounds host' client version' maxSteps maxModelRetries remaining messages inputTokens
          outputTokens)
        (fun totals totals' s t => totals = totals' ∧ Stamped P host host' 0 s t) RaisedAlike := by
  induction remaining with
  | zero =>
    intro messages inputTokens outputTokens
    rw [runRounds, runRounds]
    refine (log_stamped 0 _).bind ?_
    rintro step step' s t ⟨m, -, -, -, hst⟩
    exact .ok ⟨rfl, hst.mono (Nat.zero_le _)⟩
  | succ remaining ih =>
    intro messages inputTokens outputTokens
    rw [runRounds, runRounds, hmodel]
    refine (log_stamped 0 _).bind ?_
    rintro request request' s t ⟨m, hid, hid', -, hst⟩
    rw [hid, hid']
    refine (completeWithRetries_stamped hclient hmodel hconfig (Nat.lt_succ_self m) messages
      maxModelRetries 1).bind ?_ s t hst
    rintro reply reply' s t ⟨rfl, hcalls, hst⟩
    refine Coupled.lift_same _ (fun e s t hst => ⟨rfl, hst.client⟩) (fun replyInput => ?_) s t hst
    refine Coupled.lift_same _ (fun e s t hst => ⟨rfl, hst.client⟩) (fun replyOutput => ?_)
    refine (log_stamped_below (Nat.lt_succ_self m) _).bind fun _ _ => ?_
    refine .weaken (.ite ?_ ?_) fun s t (hst : Stamped P host host' (m + 1) s t) =>
      hst.mono (Nat.zero_le _)
    · refine (log_stamped 0 _).bind ?_
      rintro step step' s t ⟨m, -, -, -, hst⟩
      exact .ok ⟨rfl, hst.mono (Nat.zero_le _)⟩
    · refine (invokeCalls_stamped halike 0 hcalls _).bind ?_
      rintro messages messages' s t ⟨rfl, hst⟩
      exact ih _ _ _ s t hst

/-! ## A run, reproduced -/

/-- What a run leaves behind is reproduced on another machine: one blueprint stamped twice, and the
rest the same, but for the time it took. -/
structure RunnerResult.Reproduces (host host' : Host) (result result' : RunnerResult) : Prop where
  trace : ∃ blueprint : Blueprint, result.trace.steps = blueprint.stamp host ∧
    result'.trace.steps = blueprint.stamp host'
  finalOutput : result.finalOutput = result'.finalOutput
  inputTokens : result.inputTokens = result'.inputTokens
  outputTokens : result.outputTokens = result'.outputTokens
  finalState : result.finalState = result'.finalState
  maxStepsExceeded : result.maxStepsExceeded = result'.maxStepsExceeded

variable {task : BenchmarkTask} {result result' : RunnerResult}

/-- A run on two machines, from versions of one content. -/
theorem runTask_reproduces (halike : AnswersAlike host host' Q)
    (hcontent : version.content = version'.content) (executionId executionId' : Option UUID)
    (maxSteps maxModelRetries : ℕ) {c : σ}
    (hclient : client.AsksOnly c Q) :
    CoupledResult (fun result result' c c' => c = c' ∧ result.Reproduces host host' result')
      (fun e e' c c' => e = e' ∧ c = c')
      (runTask host version task client executionId maxSteps maxModelRetries c)
      (runTask host' version' task client executionId' maxSteps maxModelRetries c) := by
  obtain ⟨P, hwithin, hclient⟩ := hclient
  have hmessages : initialMessages version task = initialMessages version' task := by
    rw [initialMessages, initialMessages, show version.systemPrompt = version'.systemPrompt from
      congrArg Content.systemPrompt hcontent]
  have hrounds : CoupledResult
      (fun totals totals' s t => totals = totals' ∧ Stamped P host host' 0 s t) RaisedAlike
      (runRounds host client version maxSteps maxModelRetries maxSteps
        (initialMessages version task) 0 0
        ⟨initialProxy task (executionId.getD host.newExecutionId), c⟩)
      (runRounds host' client version' maxSteps maxModelRetries maxSteps
        (initialMessages version task) 0 0
        ⟨initialProxy task (executionId'.getD host'.newExecutionId), c⟩) :=
    runRounds_stamped halike hclient (congrArg Content.model hcontent)
      (Json.obj.inj (congrArg Content.config hcontent)) maxSteps maxModelRetries maxSteps
      (initialMessages version task) 0 0 _ _ ⟨hwithin, rfl, rfl, .empty, le_rfl, rfl, rfl⟩
  simp only [runTask, ← hmessages]
  generalize runRounds host client version maxSteps maxModelRetries maxSteps
    (initialMessages version task) 0 0 _ = r at hrounds ⊢
  generalize runRounds host' client version' maxSteps maxModelRetries maxSteps
    (initialMessages version task) 0 0 _ = r' at hrounds ⊢
  cases hrounds with
  | error h => exact .error h
  | @ok totals _ s t h =>
    obtain ⟨rfl, hst⟩ := h
    obtain ⟨blueprint, -, hs, ht⟩ := hst.trace
    have hreproduces : RunnerResult.Reproduces host host'
        { executionId := executionId.getD host.newExecutionId
          trace := s.proxy.trace.settled s.proxy.environment
          finalOutput := totals.finalOutput
          latencyMs := host.latencyMs
          inputTokens := totals.inputTokens
          outputTokens := totals.outputTokens
          finalState := s.proxy.environment.snapshot
          maxStepsExceeded := totals.maxStepsExceeded }
        { executionId := executionId'.getD host'.newExecutionId
          trace := t.proxy.trace.settled t.proxy.environment
          finalOutput := totals.finalOutput
          latencyMs := host'.latencyMs
          inputTokens := totals.inputTokens
          outputTokens := totals.outputTokens
          finalState := t.proxy.environment.snapshot
          maxStepsExceeded := totals.maxStepsExceeded } :=
      ⟨⟨blueprint.settle s.proxy.environment, by rw [Trace.settled, hs, Blueprint.settle_stamp],
        by rw [Trace.settled, ht, Blueprint.settle_stamp, hst.environment]⟩, rfl, rfl, rfl,
        by rw [hst.environment], rfl⟩
    exact .ok ⟨hst.client, hreproduces⟩

/-- The run of a job on two machines. -/
theorem runJob_reproduces (halike : AnswersAlike host host' Q)
    {modelClient : Option ClientInstance} (hcontent : version.content = version'.content)
    {executionId executionId' : UUID}
    (hclient : (clientFor modelClient task).client.AsksOnly (clientFor modelClient task).state Q)
    (h : runJob host modelClient version task executionId = .ok result) :
    ∃ result', runJob host' modelClient version' task executionId' = .ok result' ∧
      result.Reproduces host host' result' := by
  obtain ⟨c', hrun⟩ := runJob_eq_ok h
  have hcoupled : CoupledResult
      (fun result result' c c' => c = c' ∧ result.Reproduces host host' result')
      (fun e e' c c' => e = e' ∧ c = c')
      (runTask host version task (clientFor modelClient task).client (some executionId)
        defaultMaxSteps defaultMaxModelRetries (clientFor modelClient task).state)
      (runTask host' version' task (clientFor modelClient task).client (some executionId')
        defaultMaxSteps defaultMaxModelRetries (clientFor modelClient task).state) :=
    runTask_reproduces halike hcontent _ _ _ _ hclient
  rw [hrun] at hcoupled
  generalize hrun' : runTask host' version' task (clientFor modelClient task).client
    (some executionId') defaultMaxSteps defaultMaxModelRetries
    (clientFor modelClient task).state = r at hcoupled
  cases hcoupled with
  | ok h => exact ⟨_, by rw [runJob, hrun'], h.2⟩

end

/-! ### A slower machine -/

section

variable [Interpreter] {queue : Queue} {deliver : EvaluationJob → Delivery} {a a' : Assignment}
  {attempt attempt' : EvaluationJob}

/-- The attempt of the same number at the other execution. -/
def EvaluationJob.atAttemptOf (job attempt : EvaluationJob) : EvaluationJob :=
  { job with attempt := attempt.attempt, attempt_pos := attempt.attempt_pos }

/-- Two executions that are to be run alike: one task, versions of one content, and the same clients
at the same attempts, which ask for no inherited method.  The machines and the clocks are not
compared. -/
structure Assignment.Alike (deliver : EvaluationJob → Delivery) (a a' : Assignment) : Prop where
  task : a.task = a'.task
  content : a.version.content = a'.version.content
  clients : ∀ attempt attempt' : EvaluationJob, attempt.key = a.job.key →
    attempt'.key = a'.job.key → attempt.attempt = attempt'.attempt →
      (deliver attempt).modelClient = (deliver attempt').modelClient
  asks : ∀ attempt : EvaluationJob, attempt.key = a.job.key →
    (clientFor (deliver attempt).modelClient a.task).client.AsksOnly
      (clientFor (deliver attempt).modelClient a.task).state ToolCallRequest.NotInherited

omit [Interpreter] in
theorem Assignment.Alike.symm (h : a.Alike deliver a') : a'.Alike deliver a :=
  ⟨h.task.symm, h.content.symm, fun attempt attempt' hkey hkey' heq =>
    (h.clients attempt' attempt hkey' hkey heq.symm).symm, fun attempt hkey => by
    rw [← h.clients (a.job.atAttemptOf attempt) attempt rfl hkey rfl, ← h.task]
    exact h.asks _ rfl⟩

/-- Attempts of one number at alike executions run alike. -/
theorem Assignment.Alike.exists_run (h : a.Alike deliver a') (hkey : attempt.key = a.job.key)
    (hkey' : attempt'.key = a'.job.key) (heq : attempt.attempt = attempt'.attempt)
    {executionId executionId' : UUID} {result : RunnerResult}
    (hrun : runJob (deliver attempt).host (deliver attempt).modelClient a.version a.task
      executionId = .ok result) :
    ∃ result', runJob (deliver attempt').host (deliver attempt').modelClient a'.version a'.task
        executionId' = .ok result' ∧
      result.Reproduces (deliver attempt).host (deliver attempt').host result' := by
  rw [← h.clients attempt attempt' hkey hkey' heq, ← h.task]
  exact runJob_reproduces (answersAlike_notInherited _ _) h.content (h.asks attempt hkey) hrun

theorem Assignment.Alike.completes (h : a.Alike deliver a') (hkey : attempt.key = a.job.key)
    (hkey' : attempt'.key = a'.job.key) (heq : attempt.attempt = attempt'.attempt)
    (hcompletes : (deliver attempt).Completes a.version a.task) :
    (deliver attempt').Completes a'.version a'.task := by
  have hreturns : ∃ result, runJob (deliver attempt).host (deliver attempt).modelClient a.version
      a.task a.job.executionId = .ok result := Delivery.completes_iff.mp hcompletes
  obtain ⟨result, hrun⟩ := hreturns
  have hreturns' : ∃ result, runJob (deliver attempt').host (deliver attempt').modelClient
      a'.version a'.task a'.job.executionId = .ok result :=
    (h.exists_run hkey hkey' heq hrun).imp fun _ => And.left
  exact Delivery.completes_iff.mpr hreturns'

/-- **Alike executions are decided by attempts of one number.** -/
theorem Assignment.Alike.decides (h : a.Alike deliver a')
    (hdecides : Decides queue deliver a.job a.task a.version attempt) :
    Decides queue deliver a'.job a'.task a'.version (a'.job.atAttemptOf attempt) where
  isAttempt := ⟨rfl, hdecides.isAttempt.le⟩
  completes := h.completes hdecides.isAttempt.key rfl rfl hdecides.completes
  first earlier hkey hlt hcompletes :=
    hdecides.first (a.job.atAttemptOf earlier) rfl hlt (h.symm.completes hkey rfl rfl hcompletes)

end

end AgentProof
