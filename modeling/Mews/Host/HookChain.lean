import Mews.Agent.Batches
import Mews.Host.ToolRegistry

/-!
# The chain of `before_tool` hooks

A payload goes through the hooks of an Agent one after the other.  A hook that prints `null`
keeps it and any other output replaces it, so that only the last output is judged, in a Turn
of the native Harness and behind the MCP bridge alike.
-/

namespace Mews

open Protocol HostProtocol ToolRegistry

def ToolRegistry.ExternalHook.input (extension : ExternalHook) (payload : Value) : Value :=
  .object [("extension", .string extension.extension), ("hook", .string extension.hook),
    ("payload", payload), ("type", .string "hook")]

/-- The extensions of a Host. -/
structure HookEnvironment where
  state : RegistryState
  /-- `process::execute` with the input of an extension. -/
  execute : ExternalHook → Value → Except Failure Value
  debug : String → String

/-- What the next hook receives. -/
def nextPayload (payload : Value) : Value → Value
  | .null => payload
  | output => output

namespace HookEnvironment

variable (environment : HookEnvironment)

/-- The output of one hook. -/
def output (extension : ExternalHook) (payload : Value) : Except Failure Value :=
  match environment.execute extension (extension.input payload) with
  | .ok output => .ok output
  | .error failure =>
      .error (failure.context ("extension " ++ environment.debug extension.extension ++ " hook " ++
        extension.hook))

def executeHooks : List ExternalHook → Value → Except Failure Value
  | [], payload => .ok payload
  | extension :: hooks, payload =>
      match environment.output extension payload with
      | .ok output => executeHooks hooks (nextPayload payload output)
      | .error failure => .error failure

/-- What the hooks print, up to the first that fails. -/
def outputs : List ExternalHook → Value → List Value
  | [], _ => []
  | extension :: hooks, payload =>
      match environment.output extension payload with
      | .ok output => output :: outputs hooks (nextPayload payload output)
      | .error _ => []

/-- The `before_tool` hooks that are run for a call of this generation. -/
def beforeToolHooks (agentId : AgentId) (generation : Nat) : Except String (List ExternalHook) :=
  environment.state.executeHooksAtGeneration agentId "before_tool" (some generation)

/-- `AgentCapabilities::hook` at `before_tool`. -/
def beforeToolHook (agentId : AgentId) (generation : Nat) (payload : Value) :
    Except Failure Value :=
  match environment.beforeToolHooks agentId generation with
  | .error text => .error (.msg text)
  | .ok hooks => environment.executeHooks hooks payload

end HookEnvironment

/-- The call as the hooks of a native Turn see it. -/
def AgentToolCall.toValue (call : AgentToolCall) : Value :=
  .object ([("arguments", call.arguments), ("id", .string call.id), ("name", .string call.name)] ++
    call.thoughtSignature.toList.map fun signature => ("thought_signature", .string signature))

def AgentToolCall.toProtocol (call : AgentToolCall) : ToolCall :=
  { callId := call.id, tool := call.name, arguments := call.arguments
    thoughtSignature := call.thoughtSignature }

/-- `MewsRuntime::before_tool`. -/
def MewsRuntime.beforeTool (environment : HookEnvironment) (agentId : AgentId)
    (call : AgentToolCall) : Except Failure ToolDecision :=
  match environment.beforeToolHook agentId call.catalogGeneration call.toValue with
  | .error failure => .error failure
  | .ok payload => (beforeToolDecision call.toProtocol payload).mapError .msg

/-- The runtime of a Turn whose Agent has these extensions. -/
def BatchWorld.withHooks (world : BatchWorld) (environment : HookEnvironment) (agentId : AgentId) :
    BatchWorld :=
  { world with beforeTool := fun _ call => MewsRuntime.beforeTool environment agentId call }

/-- What the MCP bridge knows of its Turn. -/
structure McpCorrelation where
  mewsSessionId : String
  turnId : String
  harness : String
  acpSessionId : Option String

/-- `hook_payload` without more. -/
def McpCorrelation.hookPayload (correlation : Option McpCorrelation) (call : ToolCall) : Value :=
  match correlation with
  | none =>
      .object [("arguments", call.arguments), ("call_id", .string call.callId),
        ("tool", .string call.tool)]
  | some correlation =>
      .object ((correlation.acpSessionId.toList.map fun id => ("acp_session_id", .string id)) ++
        [("arguments", call.arguments), ("call_id", .string call.callId),
          ("harness", .string correlation.harness),
          ("session_id", .string correlation.mewsSessionId), ("tool", .string call.tool),
          ("turn_id", .string correlation.turnId)])

/-! ## What is judged -/

/-- On its own the output blocks the call, or it is malformed. -/
def Refuses (call : ToolCall) (output : Value) : Prop := beforeToolDecision call output ≠ .ok .allow

instance (call : ToolCall) (output : Value) : Decidable (Refuses call output) :=
  inferInstanceAs (Decidable (_ ≠ _))

/-- The output that is judged. -/
def decisive (outputs : List Value) : Option Value :=
  (outputs.filter fun output => !output.isNull).getLast?

theorem not_refuses_null (call : ToolCall) : ¬Refuses call .null := fun hrefuses => hrefuses rfl

theorem nextPayload_eq (payload output : Value) :
    nextPayload payload output = if output.isNull then payload else output := by
  cases output <;> rfl

theorem decisive_append (before after : List Value) :
    decisive (before ++ after) = (decisive after).or (decisive before) := by
  rw [decisive, List.filter_append, List.getLast?_append]
  rfl

theorem decisive_cons (output : Value) (outputs : List Value) (payload : Value) :
    (decisive (output :: outputs)).getD payload =
      (decisive outputs).getD (nextPayload payload output) := by
  have hcons := decisive_append [output] outputs
  rw [List.singleton_append] at hcons
  rw [hcons, nextPayload_eq]
  cases decisive outputs with
  | some last => rfl
  | none => cases output <;> rfl

namespace HookEnvironment

variable {environment : HookEnvironment} {hooks : List ExternalHook} {payload result : Value}

theorem executeHooks_ok (hrun : environment.executeHooks hooks payload = .ok result) :
    result = (decisive (environment.outputs hooks payload)).getD payload := by
  induction hooks generalizing payload with
  | nil => exact (Except.ok.inj hrun).symm
  | cons extension hooks ih =>
      rw [executeHooks] at hrun
      rw [outputs]
      cases houtput : environment.output extension payload with
      | error failure =>
          rw [houtput] at hrun
          cases hrun
      | ok output =>
          rw [houtput] at hrun
          dsimp only
          rw [decisive_cons]
          exact ih hrun

/-- A chain goes on as its first part left it. -/
theorem executeHooks_append (before after : List ExternalHook) (payload : Value) :
    environment.executeHooks (before ++ after) payload =
      match environment.executeHooks before payload with
      | .ok received => environment.executeHooks after received
      | .error failure => .error failure := by
  induction before generalizing payload with
  | nil => rfl
  | cons extension before ih =>
      rw [List.cons_append, executeHooks, executeHooks]
      cases environment.output extension payload with
      | error failure => rfl
      | ok output => exact ih _

/-- An output refuses the call, no hook fails, and the last output after it that is not `null`
allows the call. -/
def Overruled (environment : HookEnvironment) (hooks : List ExternalHook) (payload : Value)
    (call : ToolCall) : Prop :=
  (environment.executeHooks hooks payload).isOk = true ∧
    ∃ before blocked after last, environment.outputs hooks payload = before ++ blocked :: after ∧
      Refuses call blocked ∧ decisive after = some last ∧ ¬Refuses call last

/-- The chain as a whole allows the call. -/
def Allows (environment : HookEnvironment) (hooks : List ExternalHook) (payload : Value)
    (call : ToolCall) : Prop :=
  ∃ result, environment.executeHooks hooks payload = .ok result ∧ ¬Refuses call result

theorem blocks_kept_iff (call : ToolCall) :
    (∀ blocked ∈ environment.outputs hooks payload, Refuses call blocked →
      ¬environment.Allows hooks payload call) ↔ ¬environment.Overruled hooks payload call := by
  constructor
  · rintro hkept ⟨hok, before, blocked, after, last, houtputs, hblocked, hlast, hallows⟩
    have hmem : blocked ∈ environment.outputs hooks payload := by
      rw [houtputs]
      exact List.mem_append_right _ List.mem_cons_self
    apply hkept blocked hmem hblocked
    cases hrun : environment.executeHooks hooks payload with
    | error failure =>
        rw [hrun] at hok
        cases hok
    | ok result =>
        refine ⟨result, hrun, ?_⟩
        have hresult := executeHooks_ok hrun
        rw [houtputs, List.append_cons, decisive_append, hlast] at hresult
        obtain rfl : result = last := hresult
        exact hallows
  · rintro hruled blocked hmem hblocked ⟨result, hrun, hallows⟩
    obtain ⟨before, after, houtputs⟩ := List.append_of_mem hmem
    have hresult := executeHooks_ok hrun
    rw [houtputs, List.append_cons, decisive_append] at hresult
    cases hlast : decisive after with
    | some last =>
        rw [hlast] at hresult
        obtain rfl : result = last := hresult
        exact hruled ⟨by rw [hrun]; rfl, before, blocked, after, result, houtputs, hblocked, hlast,
          hallows⟩
    | none =>
        have hnull : blocked.isNull = false := by
          cases blocked <;> first | rfl | exact absurd hblocked (not_refuses_null call)
        have hsingle : decisive [blocked] = some blocked := by
          rw [decisive, List.filter_cons, hnull]
          rfl
        rw [hlast, Option.none_or, decisive_append, hsingle] at hresult
        obtain rfl : result = blocked := hresult
        exact hallows hblocked

/-- A hook that prints `null` or the payload that it received is as good as none. -/
theorem executeHooks_neutral {before : List ExternalHook} {extension : ExternalHook}
    {received : Value} (hreceived : environment.executeHooks before payload = .ok received)
    (hneutral : environment.execute extension (extension.input received) = .ok .null ∨
      environment.execute extension (extension.input received) = .ok received)
    (after : List ExternalHook) :
    environment.executeHooks (before ++ [extension]) payload = .ok received ∧
      environment.executeHooks (before ++ extension :: after) payload =
        environment.executeHooks (before ++ after) payload := by
  have hkept : ∀ hooks, environment.executeHooks (extension :: hooks) received =
      environment.executeHooks hooks received := by
    intro hooks
    rw [executeHooks, output]
    rcases hneutral with hnull | hsame
    · rw [hnull]
      rfl
    · rw [hsame]
      dsimp only
      rw [nextPayload_eq, ite_self]
  constructor
  · rw [executeHooks_append, hreceived]
    exact hkept []
  · rw [executeHooks_append, executeHooks_append, hreceived]
    exact hkept after

end HookEnvironment

/-! ## The two callers -/

/-- The bridge executes the call, on the Host or itself. -/
def Serving.Executes (call : ToolCall) (serving : Serving) : Prop :=
  serving = .executing call ∨ ∃ result, serving = .after call result

theorem executes_beforeTool_iff (tools : BridgeTools) (bridge : Bridge) (call : ToolCall)
    (response : Except Failure Value) :
    (bridge.beforeTool tools call response).1.Executes call ↔
      ∃ payload, response = .ok payload ∧ ¬Refuses call payload := by
  have hanswering (serving : Option ToolCall) : ¬(Serving.answering serving).Executes call := by
    rintro (hserving | ⟨result, hserving⟩) <;> cases hserving
  cases response with
  | error failure =>
      exact iff_of_false (hanswering none) (by simp)
  | ok payload =>
      rw [Bridge.beforeTool]
      cases hdecision : beforeToolDecision call payload with
      | error detail =>
          apply iff_of_false (hanswering none)
          rintro ⟨payload', hpayload, hallows⟩
          obtain rfl := Except.ok.inj hpayload
          exact hallows (by rw [Refuses, hdecision]; exact fun h => by cases h)
      | ok decision =>
          cases decision with
          | block reason =>
              apply iff_of_false (hanswering none)
              rintro ⟨payload', hpayload, hallows⟩
              obtain rfl := Except.ok.inj hpayload
              exact hallows (by rw [Refuses, hdecision]; exact fun h => by cases h)
          | allow =>
              apply iff_of_true _ ⟨payload, rfl, fun hrefuses => hrefuses hdecision⟩
              cases hskill : Bridge.skill tools call with
              | some result => exact .inr ⟨result, by simp⟩
              | none => exact .inl (by simp)

theorem execute_decideCall_iff (world : BatchWorld) (preparation : BatchWorld.Preparation)
    (call : AgentToolCall) :
    (world.decideCall preparation call).prepared = preparation.prepared ++ [.execute call] ↔
      world.beforeTool preparation.log call = .ok .allow := by
  have himmediate (result : ToolOutcome) :
      ¬preparation.prepared ++ [.immediate call result] =
        preparation.prepared ++ [.execute call] := by
    intro hsame
    cases List.append_cancel_left hsame
  rw [BatchWorld.decideCall]
  cases world.beforeTool preparation.log call with
  | ok decision =>
      cases decision with
      | block reason => exact iff_of_false (himmediate _) (by simp)
      | allow => exact iff_of_true rfl rfl
  | error failure =>
      apply iff_of_false _ (by simp)
      dsimp only
      cases failure.effectUncertainty with
      | some reason => exact himmediate _
      | none =>
          dsimp only
          split_ifs
          · exact himmediate _
          · exact himmediate _

theorem allow_beforeTool_iff (environment : HookEnvironment) (agentId : AgentId)
    (call : AgentToolCall) :
    MewsRuntime.beforeTool environment agentId call = .ok .allow ↔
      ∃ payload, environment.beforeToolHook agentId call.catalogGeneration call.toValue =
        .ok payload ∧ ¬Refuses call.toProtocol payload := by
  rw [MewsRuntime.beforeTool]
  cases environment.beforeToolHook agentId call.catalogGeneration call.toValue with
  | error failure => simp
  | ok payload =>
      simp only [Except.ok.injEq, exists_eq_left', Refuses, ne_eq, not_not]
      cases beforeToolDecision call.toProtocol payload with
      | error detail => simp [Except.mapError]
      | ok decision => simp [Except.mapError]

namespace HookEnvironment

variable (environment : HookEnvironment) (agentId : AgentId) (generation : Nat)

/-- The hooks that are run, none under another generation. -/
def ranHooks : List ExternalHook :=
  match environment.beforeToolHooks agentId generation with
  | .ok hooks => hooks
  | .error _ => []

/-- A call that is refused on its own by one of the hooks is not let through. -/
def BlocksKept (call : ToolCall) (payload : Value) (executes : Prop) : Prop :=
  ∀ blocked ∈ environment.outputs (environment.ranHooks agentId generation) payload,
    Refuses call blocked → ¬executes

theorem blocksKept_iff {call : ToolCall} {payload : Value} {executes : Prop}
    (hexecutes : executes ↔ ∃ result, environment.beforeToolHook agentId generation payload =
      .ok result ∧ ¬Refuses call result) :
    environment.BlocksKept agentId generation call payload executes ↔
      ¬environment.Overruled (environment.ranHooks agentId generation) payload call := by
  rw [← blocks_kept_iff, BlocksKept, hexecutes]
  cases hhooks : environment.beforeToolHooks agentId generation with
  | ok hooks => simp only [ranHooks, beforeToolHook, hhooks, Allows]
  | error text => simp [ranHooks, hhooks, outputs]

/-- A block stands unless a later output overrules it, in a Turn of the native Harness and
behind the MCP bridge; and a hook that prints `null` or its payload changes nothing. -/
theorem before_tool_blocks_kept_iff (world : BatchWorld) (preparation : BatchWorld.Preparation)
    (call : AgentToolCall) (tools : BridgeTools) (bridge : Bridge) (bridged : ToolCall)
    (correlation : Option McpCorrelation) :
    (environment.BlocksKept agentId call.catalogGeneration call.toProtocol call.toValue
        (((world.withHooks environment agentId).decideCall preparation call).prepared =
          preparation.prepared ++ [.execute call]) ↔
      ¬environment.Overruled (environment.ranHooks agentId call.catalogGeneration) call.toValue
        call.toProtocol) ∧
    (environment.BlocksKept agentId generation bridged
        (McpCorrelation.hookPayload correlation bridged)
        ((bridge.beforeTool tools bridged (environment.beforeToolHook agentId generation
          (McpCorrelation.hookPayload correlation bridged))).1.Executes bridged) ↔
      ¬environment.Overruled (environment.ranHooks agentId generation)
        (McpCorrelation.hookPayload correlation bridged) bridged) ∧
    ∀ before extension payload received,
      environment.executeHooks before payload = .ok received →
      environment.execute extension (extension.input received) = .ok .null ∨
        environment.execute extension (extension.input received) = .ok received →
      ∀ after, environment.executeHooks (before ++ [extension]) payload = .ok received ∧
        environment.executeHooks (before ++ extension :: after) payload =
          environment.executeHooks (before ++ after) payload := by
  refine ⟨?_, ?_, ?_⟩
  · apply blocksKept_iff
    rw [execute_decideCall_iff]
    exact allow_beforeTool_iff environment agentId call
  · apply blocksKept_iff
    exact executes_beforeTool_iff tools bridge bridged _
  · intro before extension payload received hreceived hneutral after
    exact executeHooks_neutral hreceived hneutral after

end HookEnvironment

namespace HookEnvironment.OverruledBlock

def agentId : AgentId := ⟨"1"⟩

def hook (extension : String) : ExternalHook :=
  { agentId, extension, command := [], hook := "before_tool" }

/-- One extension blocks every call, the next prints an object that says nothing. -/
def environment : HookEnvironment where
  state :=
    { generation := 0, tools := ⟨[], []⟩, hooks := [hook "policy", hook "telemetry"] }
  execute := fun extension _ =>
    .ok (if extension.extension = "policy" then .object [("block", .string "not allowed")]
      else .object [("seen", .bool true)])
  debug := id

def call : AgentToolCall :=
  { id := "1", name := "bash", arguments := .null, thoughtSignature := none,
    catalogGeneration := 0 }

def world : BatchWorld where
  cancelled := fun _ => false
  beforeTool := fun _ _ => .ok .allow
  execute := fun _ _ => none
  accept := fun _ _ => .ok ()
  afterTool := fun _ _ result => .ok result
  schemaError := fun _ _ => none
  debug := id

/-- The call is blocked by the first extension and executed. -/
theorem block_overruled :
    environment.outputs (environment.ranHooks agentId 0) call.toValue =
        [.object [("block", .string "not allowed")], .object [("seen", .bool true)]] ∧
      beforeToolDecision call.toProtocol (.object [("block", .string "not allowed")]) =
        .ok (.block "not allowed") ∧
      ((world.withHooks environment agentId).decideCall .initial call).prepared =
        [.execute call] := by
  decide

end HookEnvironment.OverruledBlock

end Mews
