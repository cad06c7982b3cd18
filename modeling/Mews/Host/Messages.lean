import Mews.Agent.Outcomes
import Mews.Protocol.Encoding
import Mews.Protocol.HostFrame

/-!
# The messages of a Host and their length

What a Host sends to the Hub, with the length of its encoding: alone in a frame inside
one process, and in an envelope on a link.
-/

namespace Mews

open Protocol

namespace HostProtocol

/-! ## Catalogs -/

structure ToolDefinition where
  name : String
  description : String
  schema : Value
  agentId : Option AgentId
  deriving DecidableEq, Repr

structure ToolCatalogSnapshot where
  generation : Nat
  tools : List ToolDefinition
  deriving DecidableEq, Repr

inductive HarnessProtocol where
  | mews
  | acp
  deriving DecidableEq, Repr

inductive HarnessReadiness where
  | notApplicable
  | ready
  | missing
  | required
  | stale
  | failed
  deriving DecidableEq, Repr

structure HarnessAvailability where
  runtime : HarnessReadiness
  adapter : HarnessReadiness
  authentication : HarnessReadiness
  catalog : HarnessReadiness
  detail : Option String
  deriving DecidableEq, Repr

structure HarnessModelCapability where
  id : String
  displayName : Option String
  reasoning : List String
  deriving DecidableEq, Repr

structure HarnessDescriptor where
  name : String
  protocol : HarnessProtocol
  definitionHash : String
  availability : HarnessAvailability
  executableVersion : Option String
  nativeTools : List String
  modes : List String
  supportsHttpMcp : Bool
  supportsContinuation : Bool
  models : List HarnessModelCapability
  configOptions : List Value
  probedAt : Option Int
  deriving DecidableEq, Repr

/-- A list that is skipped when it is empty. -/
def listed (name : String) (items : List Nat) : List (String × Nat) :=
  if items = [] then [] else [(name, arrayBytes items)]

def intBytes (value : Int) : Nat := (toString value).utf8ByteSize

def ToolDefinition.bytes (tool : ToolDefinition) : Nat :=
  objectBytes ([("name", textBytes tool.name), ("description", textBytes tool.description),
    ("schema", tool.schema.bytes)] ++ optional "agent_id" (tool.agentId.map (·.bytes)))

def ToolCatalogSnapshot.bytes (catalog : ToolCatalogSnapshot) : Nat :=
  objectBytes [("generation", numberBytes catalog.generation),
    ("tools", arrayBytes (catalog.tools.map (·.bytes)))]

def HarnessProtocol.asStr : HarnessProtocol → String
  | .mews => "mews"
  | .acp => "acp"

def HarnessReadiness.asStr : HarnessReadiness → String
  | .notApplicable => "not_applicable"
  | .ready => "ready"
  | .missing => "missing"
  | .required => "required"
  | .stale => "stale"
  | .failed => "failed"

def HarnessAvailability.bytes (availability : HarnessAvailability) : Nat :=
  objectBytes ([("runtime", nameBytes availability.runtime.asStr),
    ("adapter", nameBytes availability.adapter.asStr),
    ("authentication", nameBytes availability.authentication.asStr),
    ("catalog", nameBytes availability.catalog.asStr)] ++
    optional "detail" (availability.detail.map textBytes))

def HarnessModelCapability.bytes (model : HarnessModelCapability) : Nat :=
  objectBytes ([("id", textBytes model.id)] ++
    optional "display_name" (model.displayName.map textBytes) ++
    listed "reasoning" (model.reasoning.map textBytes))

def HarnessDescriptor.bytes (harness : HarnessDescriptor) : Nat :=
  objectBytes ([("name", textBytes harness.name), ("protocol", nameBytes harness.protocol.asStr),
    ("definition_hash", textBytes harness.definitionHash),
    ("availability", harness.availability.bytes)] ++
    optional "executable_version" (harness.executableVersion.map textBytes) ++
    listed "native_tools" (harness.nativeTools.map textBytes) ++
    listed "modes" (harness.modes.map textBytes) ++
    [("supports_http_mcp", boolBytes harness.supportsHttpMcp),
      ("supports_continuation", boolBytes harness.supportsContinuation)] ++
    listed "models" (harness.models.map (·.bytes)) ++
    listed "config_options" (harness.configOptions.map (·.bytes)) ++
    optional "probed_at" (harness.probedAt.map intBytes))

/-! ## Observations of an ACP Turn -/

structure AcpBindingContext where
  version : Nat
  hash : String
  channel : AcpInstructionChannel
  text : String
  deriving DecidableEq, Repr

def AcpBindingContext.bytes (context : AcpBindingContext) : Nat :=
  objectBytes [("version", numberBytes context.version), ("hash", textBytes context.hash),
    ("channel", nameBytes context.channel.asStr), ("text", textBytes context.text)]

inductive AcpEvent where
  | promptDispatched (eventKey sessionId : String)
  | assistantDelta (eventKey delta : String) (messageId : Option String) (raw : Value)
  | providerState (eventKey : String) (data : Value)
  | reasoningDelta (eventKey delta : String) (messageId : Option String) (raw : Value)
  | toolActivity (eventKey : String) (activity : ToolActivity)
  | hookOutcome (eventKey hook : String) (ok : Bool) (detail tool callId : Option String)
  | contextDispatched (eventKey acknowledgementId sessionId : String)
  | sessionBound (eventKey acknowledgementId sessionId : String)
      (transition : AcpBindingTransition) (context : AcpBindingContext)
  deriving DecidableEq, Repr

def nullableText (text : Option String) : Nat := nullable (text.map textBytes)

def AcpEvent.bytes : AcpEvent → Nat
  | .promptDispatched eventKey sessionId =>
      objectBytes [("type", nameBytes "prompt_dispatched"), ("event_key", textBytes eventKey),
        ("session_id", textBytes sessionId)]
  | .assistantDelta eventKey delta messageId raw =>
      objectBytes [("type", nameBytes "assistant_delta"), ("event_key", textBytes eventKey),
        ("delta", textBytes delta), ("message_id", nullableText messageId), ("raw", raw.bytes)]
  | .providerState eventKey data =>
      objectBytes [("type", nameBytes "provider_state"), ("event_key", textBytes eventKey),
        ("data", data.bytes)]
  | .reasoningDelta eventKey delta messageId raw =>
      objectBytes [("type", nameBytes "reasoning_delta"), ("event_key", textBytes eventKey),
        ("delta", textBytes delta), ("message_id", nullableText messageId), ("raw", raw.bytes)]
  | .toolActivity eventKey activity =>
      objectBytes [("type", nameBytes "tool_activity"), ("event_key", textBytes eventKey),
        ("activity", activity.toValue.bytes)]
  | .hookOutcome eventKey hook ok detail tool callId =>
      objectBytes [("type", nameBytes "hook_outcome"), ("event_key", textBytes eventKey),
        ("hook", textBytes hook), ("ok", boolBytes ok), ("detail", nullableText detail),
        ("tool", nullableText tool), ("call_id", nullableText callId)]
  | .contextDispatched eventKey acknowledgementId sessionId =>
      objectBytes [("type", nameBytes "context_dispatched"), ("event_key", textBytes eventKey),
        ("acknowledgement_id", textBytes acknowledgementId), ("session_id", textBytes sessionId)]
  | .sessionBound eventKey acknowledgementId sessionId transition context =>
      objectBytes [("type", nameBytes "session_bound"), ("event_key", textBytes eventKey),
        ("acknowledgement_id", textBytes acknowledgementId), ("session_id", textBytes sessionId),
        ("transition", transition.toValue.bytes), ("context", context.bytes)]

def stopReasonText : AcpStopReason → String
  | .endTurn => "end_turn"
  | .maxTokens => "max_tokens"
  | .maxTurnRequests => "max_turn_requests"
  | .refusal => "refusal"
  | .cancelled => "cancelled"
  | .other => "other"

def timingsBytes (timings : AcpTimings) : Nat :=
  objectBytes [("queue_ms", numberBytes timings.queueMs),
    ("spawn_ms", numberBytes timings.spawnMs),
    ("initialize_ms", numberBytes timings.initializeMs),
    ("continuation_ms", numberBytes timings.continuationMs),
    ("prompt_to_first_update_ms", nullable (timings.promptToFirstUpdateMs.map numberBytes)),
    ("prompt_to_first_token_ms", nullable (timings.promptToFirstTokenMs.map numberBytes)),
    ("prompt_ms", numberBytes timings.promptMs), ("total_ms", numberBytes timings.totalMs)]

/-! ## Replies -/

structure AgentReplica where
  revision : Nat
  soul : String
  configToml : String
  deriving DecidableEq, Repr

def AgentReplica.bytes (replica : AgentReplica) : Nat :=
  objectBytes [("revision", numberBytes replica.revision), ("soul", textBytes replica.soul),
    ("config_toml", textBytes replica.configToml)]

inductive HostToHub where
  | configurationResult (requestId : RequestId) (error : Option String)
  | hubTransferResult (requestId : RequestId) (nextOffset : Option Nat) (error : Option String)
  | ready (tools : ToolCatalogSnapshot) (harnesses : List HarnessDescriptor)
  | toolCatalogChanged (tools : ToolCatalogSnapshot)
  | harnessCatalog (requestId : RequestId) (harnesses : List HarnessDescriptor)
      (error : Option String)
  | toolResult (requestId : RequestId) (result : Value) (error : Option String)
  | hookResult (requestId : RequestId) (payload : Option Value) (error : Option String)
  | acpResult (requestId : RequestId) (answer acpSessionId : Option String)
      (sessionReplaced : Bool) (stopReason : Option AcpStopReason) (timings : Option AcpTimings)
      (error : Option String)
  | acpEvent (requestId : RequestId) (event : AcpEvent)
  | directoryAttested (requestId : RequestId) (canonicalPath error : Option String)
  | agentSynchronized (requestId : RequestId) (error : Option String)
  | agentReplica (requestId : RequestId) (replica : Option AgentReplica) (error : Option String)
  | projectContext (requestId : RequestId) (context error : Option String)
  | pong (nonce : Nat)
  deriving DecidableEq, Repr

namespace HostToHub

def bytes : HostToHub → Nat
  | .configurationResult requestId error =>
      objectBytes [("type", nameBytes "configuration_result"), ("request_id", requestId.bytes),
        ("error", nullableText error)]
  | .hubTransferResult requestId nextOffset error =>
      objectBytes [("type", nameBytes "hub_transfer_result"), ("request_id", requestId.bytes),
        ("next_offset", nullable (nextOffset.map numberBytes)), ("error", nullableText error)]
  | .ready tools harnesses =>
      objectBytes [("type", nameBytes "ready"), ("tools", tools.bytes),
        ("harnesses", arrayBytes (harnesses.map (·.bytes)))]
  | .toolCatalogChanged tools =>
      objectBytes [("type", nameBytes "tool_catalog_changed"), ("tools", tools.bytes)]
  | .harnessCatalog requestId harnesses error =>
      objectBytes [("type", nameBytes "harness_catalog"), ("request_id", requestId.bytes),
        ("harnesses", arrayBytes (harnesses.map (·.bytes))), ("error", nullableText error)]
  | .toolResult requestId result error =>
      objectBytes [("type", nameBytes "tool_result"), ("request_id", requestId.bytes),
        ("result", result.bytes), ("error", nullableText error)]
  | .hookResult requestId payload error =>
      objectBytes [("type", nameBytes "hook_result"), ("request_id", requestId.bytes),
        ("payload", nullable (payload.map (·.bytes))), ("error", nullableText error)]
  | .acpResult requestId answer acpSessionId sessionReplaced stopReason timings error =>
      objectBytes [("type", nameBytes "acp_result"), ("request_id", requestId.bytes),
        ("answer", nullableText answer), ("acp_session_id", nullableText acpSessionId),
        ("session_replaced", boolBytes sessionReplaced),
        ("stop_reason", nullable (stopReason.map fun reason => nameBytes (stopReasonText reason))),
        ("timings", nullable (timings.map timingsBytes)), ("error", nullableText error)]
  | .acpEvent requestId event =>
      objectBytes [("type", nameBytes "acp_event"), ("request_id", requestId.bytes),
        ("event", event.bytes)]
  | .directoryAttested requestId canonicalPath error =>
      objectBytes [("type", nameBytes "directory_attested"), ("request_id", requestId.bytes),
        ("canonical_path", nullableText canonicalPath), ("error", nullableText error)]
  | .agentSynchronized requestId error =>
      objectBytes [("type", nameBytes "agent_synchronized"), ("request_id", requestId.bytes),
        ("error", nullableText error)]
  | .agentReplica requestId replica error =>
      objectBytes [("type", nameBytes "agent_replica"), ("request_id", requestId.bytes),
        ("replica", nullable (replica.map (·.bytes))), ("error", nullableText error)]
  | .projectContext requestId context error =>
      objectBytes [("type", nameBytes "project_context"), ("request_id", requestId.bytes),
        ("context", nullableText context), ("error", nullableText error)]
  | .pong nonce => objectBytes [("type", nameBytes "pong"), ("nonce", numberBytes nonce)]

/-- The pending request that the message answers. -/
def answers : HostToHub → Option RequestId
  | .configurationResult requestId _ | .hubTransferResult requestId _ _
  | .harnessCatalog requestId _ _ | .toolResult requestId _ _ | .hookResult requestId _ _
  | .acpResult requestId _ _ _ _ _ _ | .directoryAttested requestId _ _
  | .agentSynchronized requestId _ | .agentReplica requestId _ _
  | .projectContext requestId _ _ => some requestId
  | .ready _ _ | .toolCatalogChanged _ | .acpEvent _ _ | .pong _ => none

end HostToHub

/-! ## Frames -/

/-- Where a message crosses to the other side. -/
inductive Carrier where
  /-- Between the Hub and its own Host. -/
  | inProcess
  /-- In an envelope between peers. -/
  | link
  deriving DecidableEq, Repr

/-- The frame of a message of this length; on a link `tag` names its envelope. -/
def Carrier.frameBytes (tag : String) : Carrier → Nat → Nat
  | .inProcess, body =>
      objectBytes [("version", numberBytes hostProtocolVersion), ("body", body)]
  | .link, body =>
      objectBytes [("version", numberBytes hostProtocolVersion),
        ("body", objectBytes [("type", nameBytes tag), ("body", body)])]

/-- The bytes of a frame that are not the message's own. -/
def Carrier.envelope (tag : String) : Carrier → Nat
  | .inProcess => 21
  | .link => 40 + tag.toList.length

theorem Carrier.frameBytes_eq (tag : String) (carrier : Carrier) (body : Nat) :
    carrier.frameBytes tag body = carrier.envelope tag + body := by
  have hversion : numberBytes hostProtocolVersion = 1 := by decide
  cases carrier <;>
    simp only [frameBytes, envelope, objectBytes, fieldsBytes, nameBytes, hversion, List.map_cons,
      List.map_nil, List.sum_cons, List.sum_nil] <;>
    simp <;> omega

end HostProtocol

end Mews
