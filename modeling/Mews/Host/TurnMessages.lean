import Mews.Agent.ContextBudget
import Mews.Host.Outputs

/-!
# The messages that start a Turn

On the way to its provider or Harness a Turn sends messages to its Host that are built
from the history of the Session.  What the provider takes is limited by the context
budget, and what the Host takes by the frame.
-/

namespace Mews

open Protocol

namespace HostProtocol

/-! ## Messages to a Host -/

/-- The messages that a Turn starts with. -/
inductive HubToHost where
  | readProjectContext (requestId : RequestId) (agentSlug canonicalCwd : String)
  | executeHook (requestId : RequestId) (agentId : AgentId) (hook : String) (payload : Value)
      (canonicalCwd : String) (catalogGeneration : Option Nat)
  | executeAcpTurn (requestId : RequestId) (harness : String)
      (harnessOptions : List (String × String)) (tools : List String)
      (canonicalCwd prompt recoveryPrompt : String) (agentId : AgentId)
      (agentSlug systemInstructions soul : String) (mewsSessionId : SessionId) (turnId : TurnId)
      (transition : AcpBindingTransition) (context : Option AcpBindingContext)
  deriving DecidableEq, Repr

def optionsBytes (options : List (String × String)) : Nat :=
  1 + max 1 (options.map fun option => textBytes option.1 + textBytes option.2 + 2).sum

def HubToHost.bytes : HubToHost → Nat
  | .readProjectContext requestId agentSlug canonicalCwd =>
      objectBytes [("type", nameBytes "read_project_context"), ("request_id", requestId.bytes),
        ("agent_slug", textBytes agentSlug), ("canonical_cwd", textBytes canonicalCwd)]
  | .executeHook requestId agentId hook payload canonicalCwd catalogGeneration =>
      objectBytes [("type", nameBytes "execute_hook"), ("request_id", requestId.bytes),
        ("agent_id", agentId.bytes), ("hook", textBytes hook), ("payload", payload.bytes),
        ("canonical_cwd", textBytes canonicalCwd),
        ("catalog_generation", nullable (catalogGeneration.map numberBytes))]
  | .executeAcpTurn requestId harness harnessOptions tools canonicalCwd prompt recoveryPrompt
      agentId agentSlug systemInstructions soul mewsSessionId turnId transition context =>
      objectBytes [("type", nameBytes "execute_acp_turn"), ("request_id", requestId.bytes),
        ("harness", textBytes harness), ("harness_options", optionsBytes harnessOptions),
        ("tools", arrayBytes (tools.map textBytes)), ("canonical_cwd", textBytes canonicalCwd),
        ("prompt", textBytes prompt), ("recovery_prompt", textBytes recoveryPrompt),
        ("agent_id", agentId.bytes), ("agent_slug", textBytes agentSlug),
        ("system_instructions", textBytes systemInstructions), ("soul", textBytes soul),
        ("mews_session_id", mewsSessionId.bytes), ("turn_id", turnId.bytes),
        ("transition", transition.toValue.bytes), ("context", nullable (context.map (·.bytes)))]

/-- What ends a Turn before it has dispatched its request. -/
inductive TurnStop where
  /-- A message to the Host exceeds the frame. -/
  | frame
  /-- A message is not read back as it was written. -/
  | json
  /-- The Host cannot send its reply. -/
  | disconnected
  | host (error : String)
  | payload
  | budget (error : String)
  | catalog (error : String)
  deriving DecidableEq, Repr

/-- The limit for a message to a Host, by what its frame has besides. -/
def Carrier.requestRoom (carrier : Carrier) : Nat :=
  maxHostFrameBytes - carrier.envelope "tool_request"

def Carrier.encodeRequest (carrier : Carrier) (message : HubToHost) : Except TurnStop HubToHost :=
  if maxHostFrameBytes < carrier.frameBytes "tool_request" message.bytes then .error .frame
  else .ok message

/-- What the libraries do that a Turn relies on. -/
structure Libraries where
  /-- `serde_json::from_slice` of what `serde_json::to_vec` has written. -/
  readBack : HubToHost → Option HubToHost
  /-- `serde_json::from_slice` of the output of an extension. -/
  fromSlice : List UInt8 → Option Value
  /-- `serde_json::from_value` of what a hook has made of a request. -/
  fromValue : Value → Option ModelRequest
  /-- `serde_json::to_string_pretty`. -/
  toStringPretty : Value → String
  /-- `jsonschema::validator_for` accepts the schema of a tool. -/
  validSchema : Value → Bool
  /-- `{:?}` of a text or a path. -/
  debug : String → String

section Turns

variable (library : Libraries) (carrier : Carrier)

/-- The beginning of `request_inner`; a link encodes the message once more. -/
def Carrier.request (message : HubToHost) : Except TurnStop HubToHost := do
  let message ← Carrier.inProcess.encodeRequest message
  match library.readBack message with
  | none => .error .json
  | some message => carrier.encodeRequest message

/-! ## Native Turns -/

def systemInstructions : String :=
  "You are an AI agent operating inside MEWS. Follow the agent soul and applicable project " ++
    "instructions. Use available tools when helpful and continue until the user's request is " ++
    "resolved."

def toolAllowed (pattern name : String) : Bool :=
  pattern == "*" || pattern == name ||
    (pattern.toList.getLast? == some '*' && pattern.toList.dropLast.isPrefixOf name.toList)

/-- A Turn of the native Harness, with what its Host and its provider answer. -/
structure NativeTurn where
  agentId : AgentId
  agentSlug : String
  cwd : String
  soul : String
  model : String
  reasoning : Option ReasoningEffort
  allowedTools : List String
  contextRequest : RequestId
  turnStartRequest : RequestId
  beforeModelRequest : RequestId
  /-- The answer of the Host to `ReadProjectContext`. -/
  projectContext : Except String String
  catalog : ToolCatalogSnapshot
  history : List ModelMessage
  continuation : Option ResponseContinuation
  /-- The provider continues at this response. -/
  compatible : ResponseContinuation → Bool
  /-- What the extensions of the Agent do at a hook. -/
  runs : String → List (String × ExtensionRun)

namespace NativeTurn

variable (turn : NativeTurn)

/-- `MewsRuntime::tools`. -/
def tools : List ToolDefinition :=
  (turn.catalog.tools.filter fun tool =>
    (tool.agentId = none || tool.agentId = some turn.agentId) &&
      turn.allowedTools.any fun pattern => toolAllowed pattern tool.name).map
    fun tool => { tool with agentId := none }

def contextPath : String :=
  if turn.cwd.toList.getLast? = some '/' then turn.cwd ++ "<host-context>"
  else turn.cwd ++ "/<host-context>"

/-- `MewsRuntime::request` with the only document and the skills that a Host gives. -/
def requested (context : String) : ModelRequest where
  model := turn.model
  reasoning := turn.reasoning
  system := systemInstructions ++ "\n\n<soul>\n" ++ turn.soul ++ "\n</soul>" ++
    "\n\n<project_instruction path=" ++ library.debug turn.contextPath ++ ">\n" ++ context ++
    "\n</project_instruction>" ++ "\n\n<runtime_context>\nCurrent working directory: " ++
    library.debug turn.cwd ++ "\n</runtime_context>"
  messages := turn.history
  tools := turn.tools
  continuation := turn.continuation

/-- `execute_turn_inner` before its first step: a response that the provider does not
continue is replaced by the whole history. -/
def request (context : String) : ModelRequest :=
  let request := turn.requested library context
  match request.continuation with
  | some cursor =>
      if turn.compatible cursor then request
      else { request with messages := cursor.fallbackMessages, continuation := none }
  | none => request

def contextMessage : HubToHost :=
  .readProjectContext turn.contextRequest turn.agentSlug turn.cwd

def hookMessage (requestId : RequestId) (hook : String) (payload : Value) : HubToHost :=
  .executeHook requestId turn.agentId hook payload turn.cwd none

/-- The reply of the Host to a hook. -/
def hookReply (requestId : RequestId) (hook : String) (payload : Value) : Except TurnStop Value :=
  let outcome := executeHooks library.fromSlice hook payload (turn.runs hook)
  match carrier.deliver (HostProtocol.hookMessage requestId outcome) with
  | .error _ => .error .disconnected
  | .ok _ => outcome.mapError .host

def executeHook (requestId : RequestId) (hook : String) (payload : Value) :
    Except TurnStop Value := do
  let _ ← carrier.request library (turn.hookMessage requestId hook payload)
  turn.hookReply library carrier requestId hook payload

/-- `MewsRuntime::before_model`. -/
def beforeModel (request : ModelRequest) : Except TurnStop ModelRequest := do
  let payload ← turn.executeHook library carrier turn.beforeModelRequest "before_model"
    request.toValue
  match payload with
  | .null => .ok request
  | payload =>
      match library.fromValue payload with
      | none => .error .payload
      | some request => .ok request

def ensureCatalogTools (catalog : List ToolDefinition) :
    List ToolDefinition → Except TurnStop Unit
  | [] => .ok ()
  | tool :: visible =>
      match catalog.find? (·.name = tool.name) with
      | none =>
          .error (.catalog ("before_model introduced unavailable tool " ++ library.debug tool.name))
      | some source =>
          if source ≠ tool then
            .error (.catalog
              ("before_model changed the definition of tool " ++ library.debug tool.name))
          else ensureCatalogTools catalog visible

/-- `ToolCatalog::compile`. -/
def compileTools : List ToolDefinition → List String → Except TurnStop Unit
  | [], _ => .ok ()
  | tool :: tools, names =>
      if library.validSchema tool.schema = false then
        .error (.catalog ("tool " ++ library.debug tool.name ++ " has an invalid schema"))
      else if tool.name ∈ names then
        .error (.catalog ("tool " ++ library.debug tool.name ++
          " appears more than once in the catalog"))
      else compileTools tools (tool.name :: names)

/-- The request is trimmed, and its tools are those of the catalog. -/
def trim (request : ModelRequest) : Except TurnStop ModelRequest := do
  let request ← request.applyContextBudget.mapError .budget
  ensureCatalogTools library turn.tools request.tools
  compileTools library request.tools []
  return request

/-- The Turn up to the call of its provider, with the request that it is called with. -/
def dispatch : Except TurnStop ModelRequest := do
  let _ ← carrier.request library turn.contextMessage
  let context ← turn.projectContext.mapError .host
  let _ ← turn.executeHook library carrier turn.turnStartRequest "turn_start"
    (.object [])
  let request ← turn.beforeModel library carrier (turn.request library context)
  turn.trim library request

end NativeTurn

/-! ## Turns of an ACP Harness -/

def promptContent : MessageContent → Option Value
  | .text text => some (.object [("text", .string text), ("type", .string "text")])
  | .toolCall callId tool arguments _ =>
      some (.object [("arguments", arguments), ("call_id", .string callId),
        ("tool", .string tool), ("type", .string "tool_call")])
  | .toolResult callId tool result isError uncertain =>
      some (.object [("call_id", .string callId), ("is_error", .bool isError), ("result", result),
        ("tool", .string tool), ("type", .string "tool_result"), ("uncertain", .bool uncertain)])
  | .providerState _ _ _ => none

def promptMessage (message : ModelMessage) : Option Value :=
  (promptContent message.content).map fun content =>
    .object [("content", content), ("role", .string message.role.asStr)]

def canonicalPrompt (history : List ModelMessage) (soul : String) : String :=
  library.toStringPretty (.object
    [("conversation", .array (history.filterMap promptMessage)),
      ("instructions", if soul = "" then .null else .string soul),
      ("task", .string "Continue this MEWS conversation. Reply to its latest user request.")])

/-- A Turn of an external Harness; on the Hub's own Host nothing is sent. -/
structure AcpTurn where
  requestId : RequestId
  harness : String
  harnessOptions : List (String × String)
  tools : List String
  cwd : String
  prompt : String
  history : List ModelMessage
  agentId : AgentId
  agentSlug : String
  soul : String
  mewsSessionId : SessionId
  turnId : TurnId
  transition : AcpBindingTransition
  context : Option AcpBindingContext

namespace AcpTurn

variable (turn : AcpTurn)

/-- The request that `canonical_acp_prompt` trims. -/
def request (soul : String) : ModelRequest where
  model := "acp/default"
  reasoning := none
  system := soul
  messages := turn.history
  tools := []
  continuation := none

def canonicalAcpPrompt (soul : String) : Except TurnStop String := do
  let request ← (turn.request soul).applyContextBudget.mapError .budget
  return canonicalPrompt library request.messages soul

def message (recoveryPrompt : String) : HubToHost :=
  .executeAcpTurn turn.requestId turn.harness turn.harnessOptions turn.tools turn.cwd turn.prompt
    recoveryPrompt turn.agentId turn.agentSlug systemInstructions turn.soul turn.mewsSessionId
    turn.turnId turn.transition turn.context

def dispatch : Except TurnStop Unit := do
  let recoveryPrompt ← turn.canonicalAcpPrompt library ""
  match carrier with
  | .inProcess => return ()
  | .link =>
      let _ ← carrier.request library (turn.message recoveryPrompt)
      return ()

end AcpTurn

/-! ## What fits on the way -/

/-- A Turn on a Host. -/
inductive HostTurn where
  | native (turn : NativeTurn)
  | acp (turn : AcpTurn)

/-- The request of the Turn is within the budget as `trimmed`, the Host answers, its
catalog compiles, and the messages and the request are read back as they were. -/
structure NativeTurn.Served (turn : NativeTurn) (text : String) (trimmed : ModelRequest) :
    Prop where
  projectContext : turn.projectContext = .ok text
  budget : (turn.request library text).applyContextBudget = .ok trimmed
  known : ensureCatalogTools library turn.tools turn.tools = .ok ()
  compiled : compileTools library turn.tools [] = .ok ()
  readsBack : ∀ message ∈ [turn.contextMessage,
    turn.hookMessage turn.turnStartRequest "turn_start" (.object []),
    turn.hookMessage turn.beforeModelRequest "before_model"
      (turn.request library text).toValue], library.readBack message = some message
  fromValue : library.fromValue (turn.request library text).toValue =
    some (turn.request library text).serialized

structure AcpTurn.Served (turn : AcpTurn) (trimmed : ModelRequest) : Prop where
  budget : (turn.request "").applyContextBudget = .ok trimmed
  readsBack : let message := turn.message (canonicalPrompt library trimmed.messages "")
    library.readBack message = some message

/-- No message of the Turn to its Host exceeds the frame, and without extensions the
trimmed request is what is dispatched. -/
structure NativeTurn.Reaches (turn : NativeTurn) (trimmed : ModelRequest) : Prop where
  frames : turn.dispatch library carrier ≠ .error .frame
  dispatched : (∀ hook, turn.runs hook = []) →
    (turn.dispatch library carrier).map (·.toValue) = .ok trimmed.toValue

/-- The request fits a frame before it is trimmed. -/
structure NativeTurn.Fits (turn : NativeTurn) (text : String) : Prop where
  projectContext : 122 + escapedBytes turn.agentSlug + escapedBytes turn.cwd ≤ carrier.requestRoom
  turnStart : 211 + escapedBytes turn.cwd ≤ carrier.requestRoom
  beforeModel : ∀ value,
    turn.hookReply library carrier turn.turnStartRequest "turn_start" (.object []) = .ok value →
      211 + (turn.request library text).bytes + escapedBytes turn.cwd ≤ carrier.requestRoom

/-- The frame holds every text of the Turn, its history printed as one text. -/
def AcpTurn.Fits (turn : AcpTurn) (trimmed : ModelRequest) : Prop :=
  carrier = .link →
    606 + escapedBytes turn.harness + optionsBytes turn.harnessOptions +
      arrayBytes (turn.tools.map textBytes) + escapedBytes turn.cwd + escapedBytes turn.prompt +
      escapedBytes (canonicalPrompt library trimmed.messages "") + escapedBytes turn.agentSlug +
      escapedBytes turn.soul + turn.transition.toValue.bytes +
      nullable (turn.context.map (·.bytes)) ≤ carrier.requestRoom

section Lengths

variable (turn : NativeTurn)

theorem NativeTurn.bytes_contextMessage :
    turn.contextMessage.bytes = 122 + escapedBytes turn.agentSlug + escapedBytes turn.cwd := by
  simp [contextMessage, HubToHost.bytes, objectBytes, fieldsBytes, textBytes, nameBytes,
    TaggedId.bytes, TaggedId.textLength]
  omega

theorem NativeTurn.bytes_hookMessage (requestId : RequestId) {hook : String} (hplain : Plain hook)
    (payload : Value) :
    (turn.hookMessage requestId hook payload).bytes =
      199 + hook.toList.length + payload.bytes + escapedBytes turn.cwd := by
  have hhook : escapedBytes hook = hook.toList.length := hplain
  simp [hookMessage, HubToHost.bytes, objectBytes, fieldsBytes, textBytes, nameBytes,
    TaggedId.bytes, TaggedId.textLength, nullable, hhook]
  omega

theorem escapedBytes_systemInstructions : escapedBytes systemInstructions = 185 := by
  delta systemInstructions
  rw [escapedBytes_append, escapedBytes_append]
  decide

theorem HubToHost.bytes_executeAcpTurn (requestId : RequestId) (harness : String)
    (options : List (String × String)) (tools : List String)
    (cwd prompt recoveryPrompt : String) (agentId : AgentId) (slug instructions soul : String)
    (sessionId : SessionId) (turnId : TurnId) (transition : AcpBindingTransition)
    (context : Option AcpBindingContext) :
    (HubToHost.executeAcpTurn requestId harness options tools cwd prompt recoveryPrompt agentId
      slug instructions soul sessionId turnId transition context).bytes =
      421 + escapedBytes instructions + escapedBytes harness + optionsBytes options +
        arrayBytes (tools.map textBytes) + escapedBytes cwd + escapedBytes prompt +
        escapedBytes recoveryPrompt + escapedBytes slug + escapedBytes soul +
        transition.toValue.bytes + nullable (context.map (·.bytes)) := by
  simp [HubToHost.bytes, objectBytes, fieldsBytes, textBytes, nameBytes, TaggedId.bytes,
    TaggedId.textLength]
  omega

theorem AcpTurn.bytes_message (turn : AcpTurn) (recoveryPrompt : String) :
    (turn.message recoveryPrompt).bytes =
      606 + escapedBytes turn.harness + optionsBytes turn.harnessOptions +
        arrayBytes (turn.tools.map textBytes) + escapedBytes turn.cwd + escapedBytes turn.prompt +
        escapedBytes recoveryPrompt + escapedBytes turn.agentSlug + escapedBytes turn.soul +
        turn.transition.toValue.bytes + nullable (turn.context.map (·.bytes)) := by
  rw [message, HubToHost.bytes_executeAcpTurn, escapedBytes_systemInstructions]

end Lengths

/-! ## What is sent -/

section Sent

variable {library : Libraries} {carrier : Carrier}

theorem encodeRequest_eq (carrier : Carrier) (message : HubToHost) :
    carrier.encodeRequest message =
      if message.bytes ≤ carrier.requestRoom then .ok message else .error .frame := by
  have henvelope : carrier.envelope "tool_request" ≤ maxHostFrameBytes := by
    cases carrier <;> decide
  rw [Carrier.encodeRequest, Carrier.frameBytes_eq, Carrier.requestRoom]
  split_ifs with hlarge hfits hfits
  · omega
  · rfl
  · rfl
  · omega

theorem requestRoom_le (carrier : Carrier) :
    carrier.requestRoom ≤ Carrier.inProcess.requestRoom := by
  cases carrier <;> decide

theorem request_eq {message : HubToHost} (hread : library.readBack message = some message) :
    carrier.request library message =
      if message.bytes ≤ carrier.requestRoom then .ok message else .error .frame := by
  have hroom := requestRoom_le carrier
  rw [Carrier.request, encodeRequest_eq]
  by_cases hfits : message.bytes ≤ Carrier.inProcess.requestRoom
  · rw [if_pos hfits]
    change (match library.readBack message with
      | none => Except.error TurnStop.json
      | some message => carrier.encodeRequest message) = _
    rw [hread]
    exact encodeRequest_eq carrier message
  · rw [if_neg hfits, if_neg fun hless => hfits (hless.trans hroom)]
    rfl

theorem ok_bind {E A B : Type} (value : A) (next : A → Except E B) :
    (Except.ok value >>= next) = next value := rfl

theorem mapError_ok {E F A : Type} (wrap : E → F) (value : A) :
    (Except.ok value).mapError wrap = .ok value := rfl

/-- A chain of steps stops at one of them. -/
theorem bind_eq_error_iff {E A B : Type} {step : Except E A} {next : A → Except E B} {error : E} :
    (step >>= next) = .error error ↔
      step = .error error ∨ ∃ value, step = .ok value ∧ next value = .error error := by
  cases step with
  | error error' => simp [bind, Except.bind]
  | ok value => simp [bind, Except.bind]

theorem mapError_ne_frame {E A : Type} {step : Except E A} {wrap : E → TurnStop}
    (hwrap : ∀ error, wrap error ≠ .frame) : step.mapError wrap ≠ .error .frame := by
  cases step with
  | error error =>
      intro hframe
      exact hwrap error (Except.error.inj hframe)
  | ok value =>
      intro hframe
      cases hframe

namespace NativeTurn

variable {turn : NativeTurn}

theorem ensureCatalogTools_ne_frame (catalog visible : List ToolDefinition) :
    ensureCatalogTools library catalog visible ≠ .error .frame := by
  induction visible with
  | nil =>
      intro hframe
      cases hframe
  | cons tool visible ih =>
      rw [ensureCatalogTools]
      split
      · intro hframe
        cases hframe
      · split_ifs with hsource
        · intro hframe
          cases hframe
        · exact ih

theorem compileTools_ne_frame (tools : List ToolDefinition) (names : List String) :
    compileTools library tools names ≠ .error .frame := by
  induction tools generalizing names with
  | nil =>
      intro hframe
      cases hframe
  | cons tool tools ih =>
      rw [compileTools]
      split_ifs with hschema hname
      · intro hframe
        cases hframe
      · intro hframe
        cases hframe
      · exact ih _

theorem hookReply_ne_frame (requestId : RequestId) (hook : String) (payload : Value) :
    turn.hookReply library carrier requestId hook payload ≠ .error .frame := by
  rw [hookReply]
  split
  · intro hframe
    cases hframe
  · apply mapError_ne_frame
    intro error hframe
    cases hframe

/-- A hook of the Turn ends it for its frame alone. -/
theorem executeHook_frame_iff {requestId : RequestId} {hook : String} {payload : Value}
    (hread : library.readBack (turn.hookMessage requestId hook payload) =
      some (turn.hookMessage requestId hook payload)) :
    turn.executeHook library carrier requestId hook payload = .error .frame ↔
      ¬(turn.hookMessage requestId hook payload).bytes ≤ carrier.requestRoom := by
  rw [executeHook, request_eq hread]
  by_cases hfits : (turn.hookMessage requestId hook payload).bytes ≤ carrier.requestRoom
  · rw [if_pos hfits]
    simp only [hfits, not_true_eq_false, iff_false]
    exact hookReply_ne_frame requestId hook payload
  · rw [if_neg hfits]
    simp only [hfits, not_false_eq_true, iff_true]
    rfl

theorem executeHook_ok {requestId : RequestId} {hook : String} {payload : Value}
    (hread : library.readBack (turn.hookMessage requestId hook payload) =
      some (turn.hookMessage requestId hook payload))
    (hfits : (turn.hookMessage requestId hook payload).bytes ≤ carrier.requestRoom) :
    turn.executeHook library carrier requestId hook payload =
      turn.hookReply library carrier requestId hook payload := by
  rw [executeHook, request_eq hread, if_pos hfits]
  rfl

/-- Where there are no extensions a hook gives its payload back, if its message fits. -/
theorem executeHook_unextended {requestId : RequestId} {hook : String} {payload : Value}
    (hread : library.readBack (turn.hookMessage requestId hook payload) =
      some (turn.hookMessage requestId hook payload))
    (hplain : Plain hook) (hruns : turn.runs hook = [])
    (hfits : (turn.hookMessage requestId hook payload).bytes ≤ carrier.requestRoom) :
    turn.executeHook library carrier requestId hook payload = .ok payload := by
  have hroom : carrier.requestRoom ≤ carrier.room + 1 := by
    cases carrier <;> decide
  have hreply : (HostProtocol.hookMessage requestId (.ok payload)).bytes ≤ carrier.room := by
    rw [bytes_hookMessage _ _ hplain] at hfits
    rw [bytes_hookMessage_ok]
    omega
  rw [executeHook_ok hread hfits, hookReply, hruns]
  dsimp only [executeHooks]
  rw [ResponseLoop.deliver_eq, if_pos hreply]
  rfl

theorem beforeModel_frame_iff {request : ModelRequest}
    (hread : library.readBack (turn.hookMessage turn.beforeModelRequest "before_model"
      request.toValue) = some (turn.hookMessage turn.beforeModelRequest "before_model"
        request.toValue)) :
    turn.beforeModel library carrier request = .error .frame ↔
      ¬(turn.hookMessage turn.beforeModelRequest "before_model" request.toValue).bytes ≤
        carrier.requestRoom := by
  rw [beforeModel, bind_eq_error_iff, executeHook_frame_iff hread]
  constructor
  · rintro (hfits | ⟨payload, -, hframe⟩)
    · exact hfits
    · split at hframe
      · cases hframe
      · split at hframe <;> cases hframe
  · exact Or.inl

variable {text : String} {trimmed : ModelRequest}

theorem tools_unowned (turn : NativeTurn) {tool : ToolDefinition} (htool : tool ∈ turn.tools) :
    tool.agentId = none := by
  rw [tools] at htool
  obtain ⟨source, -, rfl⟩ := List.mem_map.mp htool
  rfl

theorem request_tools (library : Libraries) (turn : NativeTurn) (text : String) :
    (turn.request library text).tools = turn.tools := by
  rw [request]
  split
  · split_ifs <;> rfl
  · rfl

theorem bytes_requestValue (library : Libraries) (turn : NativeTurn) (text : String) :
    (turn.request library text).toValue.bytes = (turn.request library text).bytes := by
  apply ModelRequest.bytes_toValue
  intro tool htool
  rw [request_tools] at htool
  exact turn.tools_unowned htool

theorem bytes_turnStart (turn : NativeTurn) :
    (turn.hookMessage turn.turnStartRequest "turn_start" (.object [])).bytes =
      211 + escapedBytes turn.cwd := by
  rw [bytes_hookMessage _ _ (by decide)]
  rfl

theorem bytes_beforeModel (library : Libraries) (turn : NativeTurn) (text : String) :
    (turn.hookMessage turn.beforeModelRequest "before_model"
      (turn.request library text).toValue).bytes =
      211 + (turn.request library text).bytes + escapedBytes turn.cwd := by
  rw [bytes_hookMessage _ _ (by decide), bytes_requestValue]
  rfl

/-- Behind the hooks of the model there is no message to the Host. -/
theorem trim_ne_frame (turn : NativeTurn) (request : ModelRequest) :
    turn.trim library request ≠ .error .frame := by
  intro hframe
  rw [trim] at hframe
  rcases bind_eq_error_iff.mp hframe with hbudget | ⟨request', -, hframe⟩
  · apply mapError_ne_frame _ hbudget
    intro error hwrap
    cases hwrap
  · rcases bind_eq_error_iff.mp hframe with hknown | ⟨_, -, hframe⟩
    · exact ensureCatalogTools_ne_frame _ _ hknown
    · rcases bind_eq_error_iff.mp hframe with hcompiled | ⟨_, -, hframe⟩
      · exact compileTools_ne_frame _ _ hcompiled
      · cases hframe

/-- The Turn from its first hook on, when its Host has answered. -/
theorem dispatch_eq (hserved : turn.Served library text trimmed)
    (hcontext : turn.contextMessage.bytes ≤ carrier.requestRoom) :
    turn.dispatch library carrier =
      (turn.executeHook library carrier turn.turnStartRequest "turn_start" (.object []) >>=
        fun _ => turn.beforeModel library carrier (turn.request library text) >>=
          turn.trim library) := by
  have hread := hserved.readsBack turn.contextMessage List.mem_cons_self
  rw [dispatch, request_eq hread, if_pos hcontext, hserved.projectContext, ok_bind, mapError_ok,
    ok_bind]

/-- The Turn ends for a frame at the first message that does not fit. -/
theorem dispatch_frame_iff (hserved : turn.Served library text trimmed) :
    turn.dispatch library carrier = .error .frame ↔ ¬turn.Fits library carrier text := by
  obtain ⟨hcontextRead, hstartRead, hmodelRead, -⟩ := by
    simpa only [List.forall_mem_cons] using hserved.readsBack
  by_cases hcontext : turn.contextMessage.bytes ≤ carrier.requestRoom
  · rw [dispatch_eq hserved hcontext, bind_eq_error_iff, executeHook_frame_iff hstartRead,
      bytes_turnStart]
    by_cases hstart : 211 + escapedBytes turn.cwd ≤ carrier.requestRoom
    · have hstartBytes := turn.bytes_turnStart
      rw [executeHook_ok hstartRead (by rw [bytes_turnStart]; exact hstart)]
      simp only [hstart, not_true_eq_false, false_or, bind_eq_error_iff,
        beforeModel_frame_iff hmodelRead, bytes_beforeModel, trim_ne_frame, and_false, exists_false,
        or_false]
      constructor
      · rintro ⟨value, hreply, hlarge⟩ hfits
        exact hlarge (hfits.beforeModel value hreply)
      · intro hfits
        by_contra hnone
        apply hfits
        refine ⟨bytes_contextMessage turn ▸ hcontext, hstart, ?_⟩
        intro value hreply
        by_contra hlarge
        exact hnone ⟨value, hreply, hlarge⟩
    · simp only [hstart, not_false_eq_true, true_or, true_iff]
      intro hfits
      exact hstart hfits.turnStart
  · rw [dispatch, request_eq hcontextRead, if_neg hcontext]
    constructor
    · intro _ hfits
      exact hcontext (bytes_contextMessage turn ▸ hfits.projectContext)
    · intro _
      rfl

theorem hookReply_ok_of_executeHook {requestId : RequestId} {hook : String} {payload value : Value}
    (hread : library.readBack (turn.hookMessage requestId hook payload) =
      some (turn.hookMessage requestId hook payload))
    (hfits : (turn.hookMessage requestId hook payload).bytes ≤ carrier.requestRoom)
    (hexecute : turn.executeHook library carrier requestId hook payload = .ok value) :
    turn.hookReply library carrier requestId hook payload = .ok value := by
  rw [← executeHook_ok hread hfits]
  exact hexecute

theorem dispatch_unextended (hserved : turn.Served library text trimmed)
    (hfits : turn.Fits library carrier text) (hruns : ∀ hook, turn.runs hook = []) :
    turn.dispatch library carrier = .ok trimmed.serialized := by
  obtain ⟨hcontextRead, hstartRead, hmodelRead, -⟩ := by
    simpa only [List.forall_mem_cons] using hserved.readsBack
  have hstartFits := hfits.turnStart
  rw [← bytes_turnStart] at hstartFits
  have hstart := executeHook_unextended hstartRead (by decide) (hruns _) hstartFits
  have hmodelFits := hfits.beforeModel _ (hookReply_ok_of_executeHook hstartRead hstartFits hstart)
  rw [← bytes_beforeModel] at hmodelFits
  have hmodel := executeHook_unextended hmodelRead (by decide) (hruns _) hmodelFits
  have hbefore : turn.beforeModel library carrier (turn.request library text) =
      .ok (turn.request library text).serialized := by
    have hfromValue := hserved.fromValue
    obtain ⟨members, hmembers⟩ : ∃ members, (turn.request library text).toValue = .object members :=
      ⟨_, rfl⟩
    rw [hmembers] at hfromValue
    rw [beforeModel, hmodel, ok_bind, hmembers]
    dsimp only
    rw [hfromValue]
  have htrim : turn.trim library (turn.request library text).serialized =
      .ok trimmed.serialized := by
    have htools : trimmed.serialized.tools = turn.tools := by
      have htrimmed := congrArg ModelRequest.tools
        (ModelRequest.applyContextBudget_ok hserved.budget).1
      exact htrimmed.trans (request_tools library turn text)
    have hbudget : (Except.ok trimmed.serialized).mapError TurnStop.budget =
        .ok trimmed.serialized := mapError_ok _ _
    rw [trim, ModelRequest.applyContextBudget_serialized, hserved.budget]
    change (do
      let request ← (Except.ok trimmed.serialized).mapError TurnStop.budget
      ensureCatalogTools library turn.tools request.tools
      compileTools library request.tools []
      return request) = _
    rw [hbudget, ok_bind, htools, hserved.known, ok_bind, hserved.compiled, ok_bind]
    rfl
  rw [dispatch_eq hserved (bytes_contextMessage turn ▸ hfits.projectContext), hstart, ok_bind,
    hbefore, ok_bind]
  exact htrim

theorem reaches_iff_fits (hserved : turn.Served library text trimmed) :
    turn.Reaches library carrier trimmed ↔ turn.Fits library carrier text := by
  constructor
  · intro hreaches
    by_contra hfits
    exact hreaches.frames ((dispatch_frame_iff hserved).mpr hfits)
  · intro hfits
    constructor
    · intro hframe
      exact (dispatch_frame_iff hserved).mp hframe hfits
    · intro hruns
      rw [dispatch_unextended hserved hfits hruns]
      change Except.ok trimmed.serialized.toValue = _
      rw [trimmed.toValue_serialized]

end NativeTurn

namespace AcpTurn

variable {turn : AcpTurn} {trimmed : ModelRequest}

theorem dispatch_ok_iff (hserved : turn.Served library trimmed) :
    turn.dispatch library carrier = .ok () ↔ turn.Fits library carrier trimmed := by
  have hread := hserved.readsBack
  have hprompt : turn.canonicalAcpPrompt library "" =
      .ok (canonicalPrompt library trimmed.messages "") := by
    rw [canonicalAcpPrompt, hserved.budget, mapError_ok, ok_bind]
    exact congrArg Except.ok rfl
  rw [dispatch, hprompt, ok_bind, Fits]
  cases carrier with
  | inProcess =>
      constructor
      · intro _ hlink
        cases hlink
      · intro _
        exact congrArg Except.ok rfl
  | link =>
      dsimp only
      rw [request_eq hread, bytes_message]
      by_cases hfits : (606 + escapedBytes turn.harness + optionsBytes turn.harnessOptions +
          arrayBytes (turn.tools.map textBytes) + escapedBytes turn.cwd +
          escapedBytes turn.prompt +
          escapedBytes (canonicalPrompt library trimmed.messages "") +
          escapedBytes turn.agentSlug + escapedBytes turn.soul + turn.transition.toValue.bytes +
          nullable (turn.context.map (·.bytes))) ≤ Carrier.link.requestRoom
      · rw [if_pos hfits, ok_bind]
        simp only [hfits, implies_true, iff_true]
        exact congrArg Except.ok rfl
      · rw [if_neg hfits]
        simp only [hfits, forall_const, iff_false]
        intro hdispatch
        cases hdispatch

end AcpTurn

end Sent

namespace HostTurn

/-- What a Turn is given whose request is within the budget as `trimmed`. -/
def Served (turn : HostTurn) (text : String) (trimmed : ModelRequest) : Prop :=
  match turn with
  | native turn => turn.Served library text trimmed
  | acp turn => turn.Served library trimmed

/-- The Turn dispatches the trimmed request. -/
def Reaches (turn : HostTurn) (trimmed : ModelRequest) : Prop :=
  match turn with
  | native turn => turn.Reaches library carrier trimmed
  | acp turn => turn.dispatch library carrier = .ok ()

/-- The untrimmed request of a native Turn fits a frame, or the texts of an ACP Turn
do together. -/
def Fits (turn : HostTurn) (text : String) (trimmed : ModelRequest) : Prop :=
  match turn with
  | native turn => turn.Fits library carrier text
  | acp turn => turn.Fits library carrier trimmed

variable {library carrier}

end HostTurn

end Turns

/-! ## A long message of the user -/

namespace LongSession

def base : Libraries where
  readBack := some
  fromSlice := fun _ => none
  fromValue := fun _ => none
  toStringPretty := fun _ => ""
  validSchema := fun _ => true
  debug := fun text => "\"" ++ text ++ "\""

def message (length : Nat) : ModelMessage where
  role := .user
  content := .text (String.ofList (List.replicate length 'x'))

/-- An Agent without extensions, with a message of this length in its Session. -/
def turn (length : Nat) : NativeTurn where
  agentId := ⟨"1"⟩
  agentSlug := "agent"
  cwd := "/work"
  soul := "Be concise."
  model := "google/gemini"
  reasoning := none
  allowedTools := []
  contextRequest := ⟨"1"⟩
  turnStartRequest := ⟨"2"⟩
  beforeModelRequest := ⟨"3"⟩
  projectContext := .ok ""
  catalog := { generation := 0, tools := [] }
  history := [message length]
  continuation := none
  compatible := fun _ => true
  runs := fun _ => []

def libraries (length : Nat) : Libraries :=
  { base with fromValue := fun _ => some ((turn length).request base "").serialized }

def request (length : Nat) : ModelRequest := (turn length).request (libraries length) ""

theorem escapedBytes_system (length : Nat) : escapedBytes (request length).system ≤ 400 := by
  have hpath : (turn length).contextPath = "/work/<host-context>" := by
    change (turn 0).contextPath = _
    decide
  have hsystem : (request length).system = systemInstructions ++ "\n\n<soul>\n" ++ "Be concise." ++
      "\n</soul>" ++ "\n\n<project_instruction path=" ++ ("\"" ++ "/work/<host-context>" ++ "\"") ++
      ">\n" ++ "" ++ "\n</project_instruction>" ++
      "\n\n<runtime_context>\nCurrent working directory: " ++ ("\"" ++ "/work" ++ "\"") ++
      "\n</runtime_context>" := by
    rw [← hpath]
    rfl
  rw [hsystem]
  simp only [escapedBytes_append, escapedBytes_systemInstructions]
  decide

theorem fixedBytes_request (length : Nat) : (request length).fixedBytes ≤ 1000 := by
  have hsystem := escapedBytes_system length
  have hmodel : escapedBytes (request length).model = 13 := by
    change escapedBytes "google/gemini" = 13
    decide
  rw [ModelRequest.fixedBytes_plain rfl rfl, hmodel]
  omega

theorem historyBytes_request (length : Nat) :
    ModelRequest.historyBytes (request length).messages = length + 53 := by
  change ModelRequest.historyBytes [message length] = _
  simp [ModelRequest.historyBytes, message, ModelMessage.bytes, MessageContent.bytes, arrayBytes,
    objectBytes, fieldsBytes, nameBytes, textBytes, escapedBytes_replicate, MessageRole.asStr]
  omega

theorem budget (length : Nat) (hlength : length ≤ 2000000) :
    (request length).applyContextBudget = .ok (request length) := by
  have hfixed := fixedBytes_request length
  have hmodel : ModelRequest.contextBudgetBytes (request length).model = 2 * 1024 * 1024 := by
    change ModelRequest.contextBudgetBytes "google/gemini" = _
    decide
  rw [ModelRequest.applyContextBudget, hmodel, historyBytes_request, if_neg (by omega)]
  exact if_pos (by omega)

theorem served (length : Nat) (hlength : length ≤ 2000000) :
    (turn length).Served (libraries length) "" (request length) where
  projectContext := rfl
  budget := budget length hlength
  known := rfl
  compiled := rfl
  readsBack := fun _ _ => rfl
  fromValue := rfl

theorem bytes_request (length : Nat) :
    length ≤ ((turn length).request (libraries length) "").bytes ∧
      ((turn length).request (libraries length) "").bytes ≤ length + 1051 := by
  have hfixed := fixedBytes_request length
  have hhistory := historyBytes_request length
  have hbytes := @ModelRequest.bytes_eq_fixedBytes (request length) rfl
  have hempty : 2 ≤ (request length).fixedBytes := by
    rw [ModelRequest.fixedBytes_plain rfl rfl]
    omega
  rw [request] at hfixed hhistory hbytes hempty
  omega

theorem hookReply_turnStart (length : Nat) (carrier : Carrier) :
    (turn length).hookReply (libraries length) carrier (turn length).turnStartRequest "turn_start"
      (.object []) = .ok (.object []) := by
  have hreply : (HostProtocol.hookMessage (turn length).turnStartRequest
      (.ok (.object []))).bytes ≤ carrier.room := by
    have hroom := carrier.room_large
    rw [bytes_hookMessage_ok]
    change 102 + 2 ≤ _
    omega
  have houtcome : executeHooks (libraries length).fromSlice "turn_start" (.object [])
      ((turn length).runs "turn_start") = .ok (.object []) := rfl
  rw [NativeTurn.hookReply, houtcome, ResponseLoop.deliver_eq, if_pos hreply]
  rfl

theorem escapedBytes_cwd (length : Nat) : escapedBytes (turn length).cwd = 5 := by
  change escapedBytes "/work" = 5
  decide

/-- A short message is dispatched. -/
theorem fits_short (carrier : Carrier) : (turn 5).Fits (libraries 5) carrier "" := by
  have hroom : 261000 ≤ carrier.requestRoom := by
    cases carrier <;> decide
  have hslug : escapedBytes (turn 5).agentSlug = 5 := by
    change escapedBytes "agent" = 5
    decide
  have hcwd := escapedBytes_cwd 5
  have hbytes := (bytes_request 5).2
  constructor
  · omega
  · omega
  · intro _ _
    omega

end LongSession

end HostProtocol

end Mews
