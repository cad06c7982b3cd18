import Mews.Agent.Outcomes

/-!
# The MCP bridge of an ACP Turn

While a Turn runs, its Harness may call the extension tools of the Agent over
HTTP.  One connection is served at a time.  Serving is a future that waits for
the request, the hooks, the tool and the write of the answer, so it can be
dropped at each of these points; `Serving` says where it stands.
-/

namespace Mews

open Protocol

namespace HookPayload

/-- A member of a hook response that has to be a text. -/
def string (object : List (String × Value)) (key : String) : Except String (Option String) :=
  match object.lookup key with
  | none => .ok none
  | some (.string text) => .ok (some text)
  | some _ => .error s!"{key} must be a string"

def object : Value → Except String (Option (List (String × Value)))
  | .null => .ok none
  | .object members => .ok (some members)
  | _ => .error "hook response must be an object or null"

end HookPayload

inductive ToolDecision where
  | allow
  | block (reason : String)
  deriving DecidableEq

def beforeToolDecision (call : ToolCall) (payload : Value) : Except String ToolDecision := do
  match ← HookPayload.object payload with
  | none => return .allow
  | some object =>
      let block ← HookPayload.string object "block"
      for key in ["name", "tool"] do
        if (← HookPayload.string object key).any (· != call.tool) then
          return .block "before_tool hooks may block a call but may not change its tool name"
      if (object.lookup "arguments").any (· ≠ call.arguments) then
        return .block "before_tool hooks may block a call but may not change its arguments"
      return match block with
        | some reason => .block reason
        | none => .allow

structure AfterTool where
  result : Option Value
  isError : Option Bool
  deriving DecidableEq

def parseAfterTool (value : Value) : Except String AfterTool := do
  match ← HookPayload.object value with
  | none => return { result := none, isError := none }
  | some object =>
      let isError ← match object.lookup "is_error" with
        | none => pure none
        | some (.bool isError) => pure (some isError)
        | some _ => throw "is_error must be a boolean"
      return { result := object.lookup "result", isError }

def boundedDetail (value : String) : String := String.ofList (value.toList.take 1024)

structure McpHookOutcome where
  hook : String
  ok : Bool
  detail : Option String
  tool : Option String
  callId : Option String
  deriving DecidableEq

/-- A call that was handed to the Host, and what became of it. -/
structure BridgedCall where
  id : String
  tool : String
  result : Option ToolOutcome
  /-- The result reached the `after_tool` hook. -/
  passed : Bool
  answered : Bool
  deriving DecidableEq

/-- What came first while a call was under way. -/
inductive Abandonment where
  | cancelled
  | elapsed
  | broken
  | line
  deriving DecidableEq

/-- A call whose connection was dropped before it was answered. -/
structure AbandonedCall where
  id : String
  /-- The request that was pending. -/
  method : String
  cause : Abandonment
  deriving DecidableEq

/-- What a Turn offers its Harness. -/
structure BridgeTools where
  tools : List String
  skills : List (String × String)
  /-- The serialized list of the skills. -/
  inventory : String

structure Bridge where
  nextCallId : Nat
  hookOutcomes : List McpHookOutcome
  uncertainEffect : Option String
  /-- The calls that were handed to the Host, the newest first. -/
  calls : List BridgedCall
  abandoned : List AbandonedCall
  deriving DecidableEq

namespace Bridge

def new : Bridge :=
  { nextCallId := 1, hookOutcomes := [], uncertainEffect := none, calls := [], abandoned := [] }

def recordHook (bridge : Bridge) (hook : String) (ok : Bool) (detail : Option String)
    (call : ToolCall) : Bridge :=
  let outcome : McpHookOutcome :=
    { hook, ok, detail := detail.map boundedDetail, tool := some call.tool,
      callId := some call.callId }
  { bridge with hookOutcomes := bridge.hookOutcomes ++ [outcome] }

def preserveEffectUncertainty (bridge : Bridge) (failure : Failure) : Bridge :=
  match failure.effectUncertainty with
  | some reason => { bridge with uncertainEffect := some reason }
  | none => bridge

def start (bridge : Bridge) (call : ToolCall) : Bridge :=
  let started : BridgedCall :=
    { id := call.callId, tool := call.tool, result := none, passed := false, answered := false }
  { bridge with calls := started :: bridge.calls }

/-- Notes what became of a call. -/
def note (bridge : Bridge) (id : String) (change : BridgedCall → BridgedCall) : Bridge :=
  { bridge with
    calls := bridge.calls.map fun call => if call.id = id then change call else call }

end Bridge

/-- Where the future that serves the current connection stands. -/
inductive Serving where
  /-- It waits for a connection or reads a request. -/
  | reading
  | before (call : ToolCall)
  | executing (call : ToolCall)
  | after (call : ToolCall) (result : ToolOutcome)
  /-- It writes the answer, of a tool call or of another request. -/
  | answering (call : Option ToolCall)
  deriving DecidableEq

/-- What ends the wait of the serving future. -/
inductive HttpStep where
  /-- Accepting, reading or writing fails. -/
  | broken (text : String)
  /-- The request is answered without a tool call. -/
  | immediate
  /-- `tools/call`, with the verdict of the catalog about the arguments. -/
  | called (name : Option String) (arguments : Option Value) (valid : Except String Unit)
  | beforeTool (response : Except Failure Value)
  | executed (result : Except Failure Value)
  | afterTool (response : Except Failure Value)
  | written

/-- How far a step brings the serving future. -/
inductive Served where
  | pending (serving : Serving)
  | finished
  | failed (text : String)
  deriving DecidableEq

/-- Where a step leaves the serving future.  One that is through reads anew, and one
that failed stays where it was until it is dropped. -/
def Served.next (before : Serving) : Served → Serving
  | .pending serving => serving
  | .finished => .reading
  | .failed _ => before

namespace Bridge

/-- `call` up to the `before_tool` hook. -/
def called (tools : BridgeTools) (bridge : Bridge) (name : Option String)
    (arguments : Option Value) (valid : Except String Unit) : Serving × Bridge :=
  match name with
  | none => (.answering none, bridge)
  | some name =>
      if name ∈ tools.tools then
        let call : ToolCall :=
          { callId := s!"mcp-{bridge.nextCallId}", tool := name,
            arguments := arguments.getD (.object []), thoughtSignature := none }
        let bridge := { bridge with nextCallId := bridge.nextCallId + 1 }
        match valid with
        | .ok () => (.before call, bridge)
        | .error error => (.answering none, bridge.recordHook "before_tool" false (some error) call)
      else (.answering none, bridge)

/-- The skills are answered by the bridge itself. -/
def skill (tools : BridgeTools) (call : ToolCall) : Option ToolOutcome :=
  if call.tool = "mews_list_skills" then
    some (.success (.string tools.inventory))
  else if call.tool = "mews_read_skill" then
    let name := match call.arguments with
      | .object members => match members.lookup "name" with
        | some (.string name) => some name
        | _ => none
      | _ => none
    match name.bind fun name => tools.skills.lookup name with
    | some content => some (.success (.string content))
    | none => some (.error "selected Agent skill is unavailable")
  else none

def beforeTool (tools : BridgeTools) (bridge : Bridge) (call : ToolCall)
    (response : Except Failure Value) : Serving × Bridge :=
  match response with
  | .error failure =>
      (.answering none,
        (bridge.preserveEffectUncertainty failure).recordHook "before_tool" false
          (some failure.toString) call)
  | .ok payload =>
      match beforeToolDecision call payload with
      | .error detail =>
          (.answering none, bridge.recordHook "before_tool" false (some detail) call)
      | .ok (.block reason) =>
          (.answering none, bridge.recordHook "before_tool" false (some reason) call)
      | .ok .allow =>
          let bridge := bridge.recordHook "before_tool" true none call
          match skill tools call with
          | some result => (.after call result, bridge)
          | none => (.executing call, bridge.start call)

/-- The environment of an ACP Turn is the local one, whose results are values. -/
def toolOutcome : Except Failure Value → ToolOutcome
  | .ok value => .success value
  | .error failure => .ofFailure failure

def executed (bridge : Bridge) (call : ToolCall) (result : Except Failure Value) :
    Serving × Bridge :=
  let bridge := match result with
    | .ok _ => bridge
    | .error failure => bridge.preserveEffectUncertainty failure
  (.after call (toolOutcome result),
    bridge.note call.callId fun started => { started with result := some (toolOutcome result) })

/-- A failed after hook cannot undo a provider-visible extension action. -/
def afterTool (bridge : Bridge) (call : ToolCall) (result : ToolOutcome)
    (response : Except Failure Value) : Serving × Bridge :=
  let (bridge, result) := match response with
    | .error failure =>
        ((bridge.preserveEffectUncertainty failure).recordHook "after_tool" false
          (some failure.toString) call, result)
    | .ok payload =>
        match parseAfterTool payload with
        | .error detail => (bridge.recordHook "after_tool" false (some detail) call, result)
        | .ok after =>
            (bridge.recordHook "after_tool" true none call,
              { result with
                value := after.result.getD result.value
                isError := after.isError.getD result.isError })
  (.answering (some call),
    bridge.note call.callId fun started =>
      { started with result := some result, passed := true })

/-- One step of the future that serves a connection. -/
def serve (tools : BridgeTools) (bridge : Bridge) : Serving → HttpStep → Served × Bridge
  | _, .broken text => (.failed text, bridge)
  | .reading, .immediate => (.pending (.answering none), bridge)
  | .reading, .called name arguments valid =>
      let (serving, bridge) := bridge.called tools name arguments valid
      (.pending serving, bridge)
  | .before call, .beforeTool response =>
      let (serving, bridge) := bridge.beforeTool tools call response
      (.pending serving, bridge)
  | .executing call, .executed result =>
      let (serving, bridge) := bridge.executed call result
      (.pending serving, bridge)
  | .after call result, .afterTool response =>
      let (serving, bridge) := bridge.afterTool call result response
      (.pending serving, bridge)
  | .answering call, .written =>
      match call with
      | some call =>
          (.finished, bridge.note call.callId fun started => { started with answered := true })
      | none => (.finished, bridge)
  | serving, _ => (.pending serving, bridge)

/-- The call on the Host that the serving future is about. -/
def started (tools : BridgeTools) : Serving → Option ToolCall
  | .executing call => some call
  | .after call _ | .answering (some call) =>
      if (skill tools call).isNone then some call else none
  | _ => none

/-- The serving future is dropped. -/
def drop (tools : BridgeTools) (bridge : Bridge) (method : String) (serving : Serving)
    (cause : Abandonment) : Bridge :=
  match started tools serving with
  | some call =>
      let dropped : AbandonedCall := { id := call.callId, method, cause }
      { bridge with abandoned := dropped :: bridge.abandoned }
  | none => bridge

/-! ## Uncertain outcomes -/

/-- An uncertain outcome of a call, also of the one being served, is remembered
for the Turn. -/
structure Accounted (bridge : Bridge) (serving : Serving) : Prop where
  calls : ∀ call ∈ bridge.calls, ∀ result, call.result = some result → result.uncertain = true →
    bridge.uncertainEffect.isSome = true
  pending : ∀ call result, serving = .after call result → result.uncertain = true →
    bridge.uncertainEffect.isSome = true

variable {bridge : Bridge} {serving : Serving} {call : ToolCall}

theorem accounted_new : Accounted new .reading := ⟨nofun, nofun⟩

theorem Accounted.ended (h : bridge.Accounted serving) : bridge.Accounted .reading :=
  ⟨h.calls, nofun⟩

/-- The future may be dropped. -/
theorem Accounted.dropped (h : bridge.Accounted serving) (tools : BridgeTools) (method : String)
    (cause : Abandonment) : (bridge.drop tools method serving cause).Accounted .reading := by
  rw [drop]
  cases started tools serving with
  | none => exact h.ended
  | some call => exact ⟨h.calls, nofun⟩

@[simp] theorem calls_recordHook (hook : String) (ok : Bool) (detail : Option String) :
    (bridge.recordHook hook ok detail call).calls = bridge.calls := rfl

@[simp] theorem uncertainEffect_recordHook (hook : String) (ok : Bool) (detail : Option String) :
    (bridge.recordHook hook ok detail call).uncertainEffect = bridge.uncertainEffect := rfl

@[simp] theorem calls_preserveEffectUncertainty (failure : Failure) :
    (bridge.preserveEffectUncertainty failure).calls = bridge.calls := by
  rw [preserveEffectUncertainty]
  cases failure.effectUncertainty <;> rfl

theorem uncertainEffect_preserveEffectUncertainty (failure : Failure)
    (h : bridge.uncertainEffect.isSome = true) :
    (bridge.preserveEffectUncertainty failure).uncertainEffect.isSome = true := by
  rw [preserveEffectUncertainty]
  cases failure.effectUncertainty with
  | none => exact h
  | some reason => rfl

theorem mem_calls_note {id : String} {change : BridgedCall → BridgedCall} {call : BridgedCall}
    (hcall : call ∈ (bridge.note id change).calls) :
    call ∈ bridge.calls ∨ ∃ started ∈ bridge.calls, started.id = id ∧ call = change started := by
  obtain ⟨started, hstarted, hchanged⟩ := List.mem_map.mp hcall
  by_cases hid : started.id = id
  · exact Or.inr ⟨started, hstarted, hid, by simpa [hid] using hchanged.symm⟩
  · rw [if_neg hid] at hchanged
    exact Or.inl (hchanged ▸ hstarted)

/-- More hook outcomes, and an uncertainty that stays, change nothing. -/
theorem Accounted.of_calls {bridge' : Bridge} {serving' : Serving} (h : bridge.Accounted serving)
    (hcalls : bridge'.calls = bridge.calls)
    (huncertain : bridge.uncertainEffect.isSome = true → bridge'.uncertainEffect.isSome = true)
    (hpending : ∀ call result, serving' = .after call result → result.uncertain = true →
      bridge'.uncertainEffect.isSome = true) : bridge'.Accounted serving' := by
  constructor
  · intro call hcall result hresult hresultUncertain
    rw [hcalls] at hcall
    exact huncertain (h.calls call hcall result hresult hresultUncertain)
  · exact hpending

theorem Accounted.elsewhere {bridge' : Bridge} {serving' : Serving} (h : bridge.Accounted serving)
    (hcalls : bridge'.calls = bridge.calls)
    (huncertain : bridge.uncertainEffect.isSome = true → bridge'.uncertainEffect.isSome = true)
    (hserving : ∀ call result, serving' ≠ .after call result) : bridge'.Accounted serving' :=
  h.of_calls hcalls huncertain fun call result hafter => absurd hafter (hserving call result)

theorem skill_uncertain {tools : BridgeTools} {result : ToolOutcome}
    (hresult : skill tools call = some result) : result.uncertain = false := by
  rw [skill] at hresult
  split_ifs at hresult
  · rw [← Option.some.inj hresult]
    rfl
  · dsimp only at hresult
    split at hresult <;> rw [← Option.some.inj hresult] <;> rfl

theorem Accounted.called (h : bridge.Accounted serving) (tools : BridgeTools) (name : Option String)
    (arguments : Option Value) (valid : Except String Unit) :
    (bridge.called tools name arguments valid).2.Accounted
      (bridge.called tools name arguments valid).1 := by
  cases name with
  | none => exact h.elsewhere rfl id nofun
  | some name =>
      by_cases hname : name ∈ tools.tools
      · cases valid <;> simp only [Bridge.called, if_pos hname] <;> exact h.elsewhere rfl id nofun
      · simp only [Bridge.called, if_neg hname]
        exact h.elsewhere rfl id nofun

theorem Accounted.beforeTool (h : bridge.Accounted serving) (tools : BridgeTools)
    (response : Except Failure Value) :
    (bridge.beforeTool tools call response).2.Accounted
      (bridge.beforeTool tools call response).1 := by
  cases response with
  | error failure =>
      exact h.elsewhere (calls_preserveEffectUncertainty failure)
        (uncertainEffect_preserveEffectUncertainty failure) nofun
  | ok payload =>
      cases hdecision : beforeToolDecision call payload with
      | error detail =>
          simp only [Bridge.beforeTool, hdecision]
          exact h.elsewhere rfl id nofun
      | ok decision =>
          cases decision with
          | block reason =>
              simp only [Bridge.beforeTool, hdecision]
              exact h.elsewhere rfl id nofun
          | allow =>
              cases hskill : skill tools call with
              | some result =>
                  simp only [Bridge.beforeTool, hdecision, hskill]
                  refine h.of_calls rfl id ?_
                  intro _ _ hafter huncertain
                  obtain ⟨-, rfl⟩ := Serving.after.inj hafter
                  simp [skill_uncertain hskill] at huncertain
              | none =>
                  simp only [Bridge.beforeTool, hdecision, hskill]
                  refine ⟨fun started hstarted result hresult huncertain => ?_, nofun⟩
                  rcases List.mem_cons.mp hstarted with rfl | hstarted
                  · exact nomatch hresult
                  · exact h.calls started hstarted result hresult huncertain

theorem Accounted.executed (h : bridge.Accounted (.executing call))
    (result : Except Failure Value) :
    (bridge.executed call result).2.Accounted (bridge.executed call result).1 := by
  cases result with
  | ok value =>
      refine ⟨fun started hstarted outcome houtcome huncertain => ?_, ?_⟩
      · rcases mem_calls_note hstarted with hstarted | ⟨first, hfirst, -, rfl⟩
        · exact h.calls started hstarted outcome houtcome huncertain
        · rw [← Option.some.inj houtcome] at huncertain
          exact nomatch huncertain
      · intro _ _ hafter huncertain
        obtain ⟨-, rfl⟩ := Serving.after.inj hafter
        exact nomatch huncertain
  | error failure =>
      have hreason : (toolOutcome (.error failure)).uncertain = true →
          (bridge.preserveEffectUncertainty failure).uncertainEffect.isSome = true := by
        rw [toolOutcome, ToolOutcome.ofFailure, preserveEffectUncertainty]
        cases failure.effectUncertainty <;> simp [ToolOutcome.error]
      refine ⟨fun started hstarted outcome houtcome huncertain => ?_, ?_⟩
      · rcases mem_calls_note hstarted with hstarted | ⟨first, hfirst, -, rfl⟩
        · rw [calls_preserveEffectUncertainty] at hstarted
          exact uncertainEffect_preserveEffectUncertainty failure
            (h.calls started hstarted outcome houtcome huncertain)
        · rw [← Option.some.inj houtcome] at huncertain
          exact hreason huncertain
      · intro _ _ hafter huncertain
        obtain ⟨-, rfl⟩ := Serving.after.inj hafter
        exact hreason huncertain

theorem Accounted.afterTool {result : ToolOutcome} (h : bridge.Accounted (.after call result))
    (response : Except Failure Value) :
    (bridge.afterTool call result response).2.Accounted
      (bridge.afterTool call result response).1 := by
  have hkept : ∀ {noted : Bridge} {change : BridgedCall → BridgedCall},
      noted.calls = bridge.calls →
      (bridge.uncertainEffect.isSome = true → noted.uncertainEffect.isSome = true) →
      (∀ started outcome, (change started).result = some outcome →
        outcome.uncertain = result.uncertain) →
      (noted.note call.callId change).Accounted (.answering (some call)) := by
    intro noted change hcalls huncertain hchange
    refine ⟨fun started hstarted outcome houtcome hresult => huncertain ?_, nofun⟩
    rcases mem_calls_note hstarted with hstarted | ⟨first, -, -, rfl⟩
    · rw [hcalls] at hstarted
      exact h.calls started hstarted outcome houtcome hresult
    · rw [hchange first outcome houtcome] at hresult
      exact h.pending call result rfl hresult
  cases response with
  | error failure =>
      refine hkept (calls_preserveEffectUncertainty failure)
        (uncertainEffect_preserveEffectUncertainty failure) ?_
      intro _ _ houtcome
      rw [← Option.some.inj houtcome]
  | ok payload =>
      cases hparsed : parseAfterTool payload with
      | error detail =>
          simp only [Bridge.afterTool, hparsed]
          refine hkept rfl id ?_
          intro _ _ houtcome
          rw [← Option.some.inj houtcome]
      | ok after =>
          simp only [Bridge.afterTool, hparsed]
          refine hkept rfl id ?_
          intro _ _ houtcome
          rw [← Option.some.inj houtcome]

theorem Accounted.written (h : bridge.Accounted serving) (id : String) :
    (bridge.note id fun started => { started with answered := true }).Accounted .reading := by
  refine ⟨fun started hstarted outcome houtcome huncertain => ?_, nofun⟩
  rcases mem_calls_note hstarted with hstarted | ⟨first, hfirst, -, rfl⟩
  · exact h.calls started hstarted outcome houtcome huncertain
  · exact h.calls first hfirst outcome houtcome huncertain

theorem Accounted.serve (h : bridge.Accounted serving) (tools : BridgeTools) (step : HttpStep) :
    (bridge.serve tools serving step).2.Accounted
      ((bridge.serve tools serving step).1.next serving) := by
  cases step with
  | broken text => cases serving <;> exact h
  | immediate =>
      cases serving with
      | reading => exact h.elsewhere rfl id nofun
      | _ => exact h
  | called name arguments valid =>
      cases serving with
      | reading => exact h.called tools name arguments valid
      | _ => exact h
  | beforeTool response =>
      cases serving with
      | before call => exact h.beforeTool tools response
      | _ => exact h
  | executed result =>
      cases serving with
      | executing call => exact h.executed result
      | _ => exact h
  | afterTool response =>
      cases serving with
      | after call result => exact h.afterTool response
      | _ => exact h
  | written =>
      cases serving with
      | answering call =>
          cases call with
          | none => exact h.ended
          | some call => exact h.written call.callId
      | _ => exact h

end Bridge

end Mews
