import AgentProof.Runner.Raises

/-!
# Runner/NoOps — a failed tool call is a no-op

A run of requests through the proxy, over a well-formed state: every call is recorded with its
outcome, no call raises, and the failed and the read-only calls can be left out of the run without
changing the outcome of the others or the final state (`invokeAll_noOps`).
-/

open Machinery Machinery.Raising

namespace AgentProof

variable [Interpreter]

/-! ## One request -/

/-- A call on a service, run through `execute`. -/
theorem execute_operation (host : Host) (op : Operation) (arguments : Dict String Json)
    (env : SupportToolEnvironment) :
    execute host op.service op.name arguments env = (PyValue.json <$> op.call arguments) env := by
  rw [execute, op.resolve]
  rfl

/-- A tool call an agent requests of a public operation. -/
structure ToolRequest extends Call where
  callId : String

/-- `proxy.invoke` on a request. -/
def ToolRequest.invoke (host : Host) (request : ToolRequest) :
    EStateM PyError TracedToolProxy TraceStep :=
  TracedToolProxy.invoke host request.callId request.operation.service request.operation.name
    request.arguments

/-- The proxy over a wired environment. -/
def proxyOver (s : SupportState) (trace : Trace) : TracedToolProxy where
  environment := { state := s }
  trace := trace

/-- The payload a request is recorded with, and the state after it: the request was carried out, or
it failed and the state is unchanged. -/
inductive RequestOutcome (request : ToolRequest) (s : SupportState) :
    StepPayload → SupportState → Prop where
  | result {value : Json} {s' : SupportState}
      (h : request.operation.call request.arguments { state := s } = .ok value { state := s' }) :
      RequestOutcome request s (.toolResult request.callId (.json value)) s'
  | error {e : PyError} (hcaught : Caught e)
      (h : request.operation.call request.arguments { state := s } = .error e { state := s }) :
      RequestOutcome request s (.error e.className e.text) s

/-- **One request on a well-formed state**: it has an outcome, and every proxy over that state
records it, whatever its trace. -/
theorem ToolRequest.invoke_spec {s : SupportState} (hs : s.SeedWellFormed)
    (request : ToolRequest) :
    ∃ payload s', RequestOutcome request s payload s' ∧ s'.SeedWellFormed ∧
      ∀ host trace, request.invoke host (proxyOver s trace) =
        .ok (TracedToolProxy.closingStep host trace request.callId request.operation.service
            request.operation.name request.arguments payload)
          (TracedToolProxy.invoked host (proxyOver s trace) request.callId
            request.operation.service request.operation.name request.arguments payload
            { state := s' }) := by
  obtain ⟨s', heffect, hstate⟩ :=
    request.operation.call_effect request.arguments { state := s }
  cases hcall : request.operation.call request.arguments { state := s } with
  | ok value env =>
    rw [hcall, stateOf_ok] at hstate
    subst hstate
    refine ⟨_, s', .result hcall, heffect.seedWellFormed hs, fun host trace => ?_⟩
    exact TracedToolProxy.invoke_of_ok (by
      rw [execute_operation, map_apply]
      simp only [proxyOver, hcall])
  | error e env =>
    obtain rfl := Operation.call_error hs hcall
    have hcaught := request.operation.call_raises hs request.arguments e _ hcall
    refine ⟨_, s, .error hcaught hcall, hs, fun host trace => ?_⟩
    exact TracedToolProxy.invoke_of_caught (by
      rw [execute_operation, map_apply]
      simp only [proxyOver, hcall]) hcaught

/-- A read-only request changes nothing. -/
theorem RequestOutcome.eq_of_readOnly {request : ToolRequest} {s s' : SupportState}
    {payload : StepPayload} (h : RequestOutcome request s payload s')
    (hread : request.operation.readOnly = true) : s' = s := by
  cases h with
  | result h =>
    obtain ⟨s₁, heffect, hstate⟩ :=
      request.operation.call_effect request.arguments { state := s }
    obtain rfl := heffect.eq_of_readOnly hread
    rw [h, stateOf_ok] at hstate
    exact congrArg SupportToolEnvironment.state hstate
  | error => rfl

/-! ## A run of requests -/

/-- The requests one after the other, with the step each closes with. -/
def invokeAll (host : Host) : List ToolRequest → EStateM PyError TracedToolProxy (List TraceStep)
  | [] => pure []
  | request :: requests => do
    let step ← request.invoke host
    let steps ← invokeAll host requests
    return step :: steps

theorem invokeAll_cons {host : Host} {request : ToolRequest} {requests : List ToolRequest}
    {proxy proxy' proxy'' : TracedToolProxy} {step : TraceStep} {steps : List TraceStep}
    (h : request.invoke host proxy = .ok step proxy')
    (h' : invokeAll host requests proxy' = .ok steps proxy'') :
    invokeAll host (request :: requests) proxy = .ok (step :: steps) proxy'' := by
  rw [invokeAll, bind_of_ok h, bind_of_ok h']
  rfl

/-- The step records a failure. -/
def StepPayload.isError : StepPayload → Bool
  | .error _ _ => true
  | _ => false

/-- The request was carried out and is not read-only. -/
def effectful (recorded : ToolRequest × StepPayload) : Bool :=
  !recorded.2.isError && !recorded.1.operation.readOnly

/-- From `s`, every proxy ends the requests in `s'`, recording these payloads. -/
def RunsTo (requests : List ToolRequest) (s : SupportState) (payloads : List StepPayload)
    (s' : SupportState) : Prop :=
  ∀ host trace, ∃ steps trace', invokeAll host requests (proxyOver s trace) =
    .ok steps (proxyOver s' trace') ∧ steps.map (·.payload) = payloads

theorem RunsTo.nil (s : SupportState) : RunsTo [] s [] s :=
  fun _ trace => ⟨[], trace, rfl, rfl⟩

/-- A request that is left out changed nothing. -/
theorem RequestOutcome.eq_of_not_effectful {request : ToolRequest} {s s' : SupportState}
    {payload : StepPayload} (h : RequestOutcome request s payload s')
    (hnot : effectful (request, payload) = false) : s' = s := by
  by_cases hread : request.operation.readOnly = true
  · exact h.eq_of_readOnly hread
  · cases h with
    | result => simp [effectful, StepPayload.isError, hread] at hnot
    | error => rfl

/-- **Run lemma**: the requests run to the end, and so do the effectful ones alone — to the same
state. -/
theorem invokeAll_runsTo (requests : List ToolRequest) :
    ∀ {s : SupportState}, s.SeedWellFormed → ∃ payloads s', s'.SeedWellFormed ∧
      RunsTo requests s payloads s' ∧ payloads.length = requests.length ∧
      RunsTo (((requests.zip payloads).filter effectful).map Prod.fst) s
        (((requests.zip payloads).filter effectful).map Prod.snd) s' := by
  induction requests with
  | nil => exact fun {s} hs => ⟨[], s, hs, .nil s, rfl, .nil s⟩
  | cons request requests ih =>
    intro s hs
    obtain ⟨payload, s₁, houtcome, hs₁, hinvoke⟩ := request.invoke_spec hs
    obtain ⟨payloads, s', hs', hrun, hlength, hkept⟩ := ih hs₁
    have hcons : ∀ {requests payloads}, RunsTo requests s₁ payloads s' →
        RunsTo (request :: requests) s (payload :: payloads) s' := by
      intro requests payloads hrun host trace
      obtain ⟨steps, trace', hsteps, hpayloads⟩ := hrun host _
      exact ⟨_, trace', invokeAll_cons (hinvoke host trace) hsteps, by
        rw [List.map_cons, hpayloads]; rfl⟩
    refine ⟨payload :: payloads, s', hs', hcons hrun, by simp [hlength], ?_⟩
    rw [List.zip_cons_cons]
    cases heffectful : effectful (request, payload) with
    | true => rw [List.filter_cons_of_pos heffectful]; exact hcons hkept
    | false =>
      rw [List.filter_cons_of_neg (by simp [heffectful])]
      rw [houtcome.eq_of_not_effectful heffectful] at hkept
      exact hkept

/-- One call is recorded: a tool call, then its result or its error as a child of it; with an error
the environment is as it was. -/
structure Recorded (request : ToolRequest) (before : TracedToolProxy) (step : TraceStep)
    (after : TracedToolProxy) : Prop where
  steps : ∃ callStep, after.trace.steps = before.trace.steps ++ [callStep, step] ∧
    callStep.payload = .toolCall request.callId request.operation.service request.operation.name
      request.arguments ∧ step.parentStepId = some callStep.id
  outcome : (∃ result, step.payload = .toolResult request.callId result) ∨
    ∃ errorType message, step.payload = .error errorType message ∧
      after.environment = before.environment

/-- **A request on a well-formed state is recorded.** -/
theorem ToolRequest.recorded {s : SupportState} (hs : s.SeedWellFormed) (request : ToolRequest)
    (host : Host) (trace : Trace) :
    ∃ step proxy, request.invoke host (proxyOver s trace) = .ok step proxy ∧
      Recorded request (proxyOver s trace) step proxy := by
  obtain ⟨payload, s', houtcome, -, hinvoke⟩ := request.invoke_spec hs
  refine ⟨_, _, hinvoke host trace, ⟨⟨_, rfl, rfl, rfl⟩, ?_⟩⟩
  cases houtcome with
  | result => exact .inl ⟨_, rfl⟩
  | error => exact .inr ⟨_, _, rfl, rfl⟩

/-- **Failed tool calls are no-ops and never abort a run.**  From a well-formed state any sequence
of requests runs to its end; each of its calls is recorded; and the calls that were carried out and
are not read-only reach the same state with the same outcomes when they are made alone. -/
theorem invokeAll_noOps {s : SupportState} (hs : s.SeedWellFormed) (host : Host) (trace : Trace)
    (requests : List ToolRequest) :
    ∃ steps s' trace',
      invokeAll host requests (proxyOver s trace) = .ok steps (proxyOver s' trace') ∧
      steps.length = requests.length ∧
      (∀ before request after, requests = before ++ request :: after →
        ∃ stepsBefore proxy step proxy',
          invokeAll host before (proxyOver s trace) = .ok stepsBefore proxy ∧
          request.invoke host proxy = .ok step proxy' ∧ Recorded request proxy step proxy') ∧
      RunsTo (((requests.zip (steps.map (·.payload))).filter effectful).map Prod.fst) s
        (((requests.zip (steps.map (·.payload))).filter effectful).map Prod.snd) s' := by
  obtain ⟨payloads, s', -, hrun, hlength, hkept⟩ := invokeAll_runsTo requests hs
  obtain ⟨steps, trace', hsteps, rfl⟩ := hrun host trace
  refine ⟨steps, s', trace', hsteps, by simpa using hlength, fun before request after _ => ?_,
    hkept⟩
  obtain ⟨_, s₁, hs₁, hbefore, -, -⟩ := invokeAll_runsTo before hs
  obtain ⟨stepsBefore, trace₁, hstepsBefore, -⟩ := hbefore host trace
  obtain ⟨step, proxy', hinvoke, hrecorded⟩ := request.recorded hs₁ host trace₁
  exact ⟨stepsBefore, _, step, proxy', hstepsBefore, hinvoke, hrecorded⟩

omit [Interpreter] in
theorem invokeAll_noOps_refund :
    ∃ steps s' trace', @invokeAll cpython plainHost
        [⟨⟨.escalateTicket, [("ticket_id", .str "TICK-9001")]⟩, "c1"⟩]
        (proxyOver refundWithinPolicyState { executionId := "execution" }) =
      .ok steps (proxyOver s' trace') := by
  obtain ⟨steps, s', trace', h, -⟩ := @invokeAll_noOps cpython _
    (refundWithinPolicyState_wellFormed
      { status := ⟨_, rfl⟩
        notes := fun notes h => ⟨[], (Option.some.inj h).symm⟩
        count := fun count h => absurd h (by simp [Dict.get?_cons]) })
    plainHost { executionId := "execution" }
    [⟨⟨.escalateTicket, [("ticket_id", .str "TICK-9001")]⟩, "c1"⟩]
  exact ⟨steps, s', trace', h⟩

end AgentProof
