import Mathlib.Algebra.Order.BigOperators.Group.List
import Mathlib.Algebra.GroupWithZero.Nat
import Mathlib.Algebra.Order.Group.Nat
import Mews.Protocol.Events

/-!
# The length of an encoding

What crosses the wire is JSON, and its pages and frames are limited in bytes.
This module gives the length of the encoding of every value that is paged: the
fields of a structure and the tag of a variant as they are serialized, optional
fields where they are skipped, and texts with their escapes.
-/

namespace Mews.Protocol

/-- A character inside a JSON string.  Quotes, backslashes and five control
characters have short escapes, the other control characters `\u` escapes. -/
def charBytes (char : Char) : Nat :=
  if char = '"' ∨ char = '\\' ∨ char.toNat ∈ [8, 9, 10, 12, 13] then 2
  else if char.toNat < 0x20 then 6
  else char.utf8Size

def escapedBytes (text : String) : Nat := (text.toList.map charBytes).sum

def textBytes (text : String) : Nat := escapedBytes text + 2

/-- A field or variant name of the source, which needs no escapes. -/
def nameBytes (name : String) : Nat := name.toList.length + 2

def numberBytes (value : Nat) : Nat := (Nat.toDigits 10 (value % 2 ^ 64)).length

def boolBytes (value : Bool) : Nat := if value then 4 else 5

/-- An absent value that is written as `null`. -/
def nullable (bytes : Option Nat) : Nat := bytes.getD 4

/-- Each field with its name, its colon and one separator. -/
def fieldsBytes (fields : List (String × Nat)) : Nat :=
  (fields.map fun field => nameBytes field.1 + field.2 + 2).sum

/-- The braces stand for one separator too many and one more byte. -/
def objectBytes (fields : List (String × Nat)) : Nat := 1 + max 1 (fieldsBytes fields)

def arrayBytes (items : List Nat) : Nat := 1 + max 1 (items.map (· + 1)).sum

/-- A field that is skipped when it is absent. -/
def optional (name : String) (bytes : Option Nat) : List (String × Nat) :=
  bytes.toList.map fun bytes => (name, bytes)

theorem le_objectBytes (name : String) {fields : List (String × Nat)} {bytes : Nat}
    (hfield : (name, bytes) ∈ fields) : bytes ≤ objectBytes fields := by
  have hmem : nameBytes name + bytes + 2 ∈
      fields.map fun field => nameBytes field.1 + field.2 + 2 :=
    List.mem_map_of_mem hfield
  have hle := List.single_le_sum (fun _ _ => Nat.zero_le _) _ hmem
  rw [objectBytes, fieldsBytes]
  omega

/-- A UUID is 36 characters long, whatever text stands for it here. -/
def TaggedId.textLength {marker : String} (_ : TaggedId marker) : Nat :=
  marker.toList.length + 36

def TaggedId.bytes {marker : String} (id : TaggedId marker) : Nat := id.textLength + 2

/-- RFC 3339 with as many fraction digits as the instant needs; a year of more
than four digits has a sign. -/
def timeBytes (time : DateTime) : Nat :=
  let fraction :=
    if time % 10 ^ 9 = 0 then 0 else if time % 10 ^ 6 = 0 then 4
    else if time % 10 ^ 3 = 0 then 7 else 10
  let year := if time < 253402300800 * 10 ^ 9 then 0 else
    if time < 3093527980800 * 10 ^ 9 then 2 else 3
  22 + fraction + year

mutual

def Value.bytes : Value → Nat
  | .null => 4
  | .bool value => boolBytes value
  | .number literal => literal.utf8ByteSize
  | .string text => textBytes text
  | .array items => 1 + max 1 (Value.itemsBytes items)
  | .object members => 1 + max 1 (Value.membersBytes members)

def Value.itemsBytes : List Value → Nat
  | [] => 0
  | item :: items => Value.bytes item + 1 + Value.itemsBytes items

def Value.membersBytes : List (String × Value) → Nat
  | [] => 0
  | (key, value) :: members =>
      textBytes key + Value.bytes value + 2 + Value.membersBytes members

end

/-! ## Messages and timeline items -/

def MessageRole.asStr : MessageRole → String
  | .user => "user"
  | .assistant => "assistant"
  | .tool => "tool"

def MessageContent.bytes : MessageContent → Nat
  | .text value => objectBytes [("type", nameBytes "text"), ("text", textBytes value)]
  | .toolCall callId tool arguments thoughtSignature =>
      objectBytes ([("type", nameBytes "tool_call"), ("call_id", textBytes callId),
        ("tool", textBytes tool), ("arguments", arguments.bytes)] ++
        optional "thought_signature" (thoughtSignature.map textBytes))
  | .toolResult callId tool result isError uncertain =>
      objectBytes [("type", nameBytes "tool_result"), ("call_id", textBytes callId),
        ("tool", textBytes tool), ("result", result.bytes), ("is_error", boolBytes isError),
        ("uncertain", boolBytes uncertain)]
  | .providerState provider model data =>
      objectBytes [("type", nameBytes "provider_state"), ("provider", textBytes provider),
        ("model", textBytes model), ("data", data.bytes)]

def SourceKind.asStr : SourceKind → String
  | .client => "client"
  | .channel => "channel"
  | .harness => "harness"
  | .host => "host"

def ChannelOrigin.bytes (origin : ChannelOrigin) : Nat :=
  objectBytes [("consumer_id", origin.consumerId.bytes),
    ("conversation", textBytes origin.conversation)]

def MessageSource.bytes (source : MessageSource) : Nat :=
  objectBytes ([("kind", nameBytes source.kind.asStr), ("id", textBytes source.id)] ++
    optional "channel_origin" (source.channelOrigin.map (·.bytes)))

def Message.bytes (message : Message) : Nat :=
  objectBytes [("id", message.id.bytes), ("session_id", message.sessionId.bytes),
    ("sequence", numberBytes message.sequence), ("role", nameBytes message.role.asStr),
    ("content", message.content.bytes), ("metadata", message.metadata.bytes),
    ("source", message.source.bytes), ("created_at", timeBytes message.createdAt)]

def HarnessProvenance.bytes (harness : HarnessProvenance) : Nat :=
  objectBytes ([("name", textBytes harness.name),
    ("definition_hash", textBytes harness.definitionHash)] ++
    optional "version" (harness.version.map textBytes))

def ToolCall.bytes (call : ToolCall) : Nat :=
  objectBytes ([("call_id", textBytes call.callId), ("tool", textBytes call.tool),
    ("arguments", call.arguments.bytes)] ++
    optional "thought_signature" (call.thoughtSignature.map textBytes))

def ToolResult.bytes (result : ToolResult) : Nat :=
  objectBytes [("call_id", textBytes result.callId), ("tool", textBytes result.tool),
    ("result", result.result.bytes), ("is_error", boolBytes result.isError),
    ("uncertain", boolBytes result.uncertain)]

def ReasoningProvenance.bytes : ReasoningProvenance → Nat
  | .provider name model =>
      objectBytes [("kind", nameBytes "provider"), ("provider", textBytes name),
        ("model", textBytes model)]
  | .harness name messageId =>
      objectBytes ([("kind", nameBytes "harness"), ("harness", textBytes name)] ++
        optional "message_id" (messageId.map textBytes))

def ModelUsage.bytes (usage : ModelUsage) : Nat :=
  objectBytes [("input_tokens", numberBytes usage.inputTokens),
    ("output_tokens", numberBytes usage.outputTokens),
    ("cached_input_tokens", numberBytes usage.cachedInputTokens),
    ("reasoning_tokens", numberBytes usage.reasoningTokens)]

def AssistantResponseBlock.bytes : AssistantResponseBlock → Nat
  | .text value => objectBytes [("type", nameBytes "text"), ("text", textBytes value)]
  | .reasoning value signature =>
      objectBytes ([("type", nameBytes "reasoning"), ("text", textBytes value)] ++
        optional "signature" (signature.map textBytes))
  | .toolCall callId tool arguments thoughtSignature =>
      objectBytes ([("type", nameBytes "tool_call"), ("call_id", textBytes callId),
        ("tool", textBytes tool), ("arguments", arguments.bytes)] ++
        optional "thought_signature" (thoughtSignature.map textBytes))
  | .opaqueState provider model data =>
      objectBytes [("type", nameBytes "opaque_state"), ("provider", textBytes provider),
        ("model", textBytes model), ("data", data.bytes)]

def AssistantResponse.bytes (response : AssistantResponse) : Nat :=
  objectBytes ([("provider", textBytes response.provider), ("model", textBytes response.model),
    ("api", textBytes response.api)] ++
    optional "response_id" (response.responseId.map textBytes) ++
    [("blocks", arrayBytes (response.blocks.map (·.bytes)))] ++
    optional "usage" (response.usage.map (·.bytes)) ++
    optional "stop_reason" (response.stopReason.map textBytes))

def SessionEntryPayload.bytes : SessionEntryPayload → Nat
  | .userMessage content metadata source =>
      objectBytes [("type", nameBytes "user_message"), ("content", content.bytes),
        ("metadata", metadata.bytes), ("source", source.bytes)]
  | .turnStarted turnId harness =>
      objectBytes [("type", nameBytes "turn_started"), ("turn_id", turnId.bytes),
        ("harness", harness.bytes)]
  | .assistantResponse turnId response =>
      objectBytes [("type", nameBytes "assistant_response"), ("turn_id", turnId.bytes),
        ("response", response.bytes)]
  | .toolStarted turnId call =>
      objectBytes [("type", nameBytes "tool_started"), ("turn_id", turnId.bytes),
        ("call", call.bytes)]
  | .toolResult turnId result =>
      objectBytes [("type", nameBytes "tool_result"), ("turn_id", turnId.bytes),
        ("result", result.bytes)]
  | .reasoning turnId text visibility provenance =>
      objectBytes [("type", nameBytes "reasoning"), ("turn_id", turnId.bytes),
        ("text", textBytes text), ("visibility", nameBytes visibility.asStr),
        ("provenance", provenance.bytes)]
  | .turnCompleted turnId stopReason =>
      objectBytes ([("type", nameBytes "turn_completed"), ("turn_id", turnId.bytes)] ++
        optional "stop_reason" (stopReason.map textBytes))
  | .turnFailed turnId error =>
      objectBytes [("type", nameBytes "turn_failed"), ("turn_id", turnId.bytes),
        ("error", textBytes error)]
  | .turnCancelled turnId =>
      objectBytes [("type", nameBytes "turn_cancelled"), ("turn_id", turnId.bytes)]
  | .contextCompaction summary firstKeptEntryId tokensBefore =>
      objectBytes [("type", nameBytes "context_compaction"), ("summary", textBytes summary),
        ("first_kept_entry_id", firstKeptEntryId.bytes),
        ("tokens_before", numberBytes tokensBefore)]
  | .harnessObservation turnId harnessSessionId kind data =>
      objectBytes ([("type", nameBytes "harness_observation"), ("turn_id", turnId.bytes)] ++
        optional "harness_session_id" (harnessSessionId.map textBytes) ++
        [("kind", textBytes kind), ("data", data.bytes)])

def SessionEntry.bytes (entry : SessionEntry) : Nat :=
  objectBytes [("id", entry.id.bytes), ("session_id", entry.sessionId.bytes),
    ("sequence", numberBytes entry.sequence),
    ("parent_id", nullable (entry.parentId.map (·.bytes))), ("payload", entry.payload.bytes),
    ("created_at", timeBytes entry.createdAt)]

/-! ## Journal entries -/

def Installation.bytes (installation : Installation) : Nat :=
  objectBytes [("id", installation.id.bytes), ("public_key", textBytes installation.publicKey),
    ("relay_url", nullable (installation.relayUrl.map textBytes)),
    ("hub_host_id", installation.hubHostId.bytes),
    ("generation", numberBytes installation.generation),
    ("created_at", timeBytes installation.createdAt)]

def Host.bytes (host : Host) : Nat :=
  objectBytes [("id", host.id.bytes), ("name", textBytes host.name),
    ("public_key", textBytes host.publicKey), ("noise_public_key", textBytes host.noisePublicKey),
    ("relay_url", nullable (host.relayUrl.map textBytes)),
    ("created_at", timeBytes host.createdAt)]

def Agent.bytes (agent : Agent) : Nat :=
  objectBytes [("id", agent.id.bytes), ("slug", textBytes agent.slug),
    ("current_revision", numberBytes agent.currentRevision),
    ("archived", boolBytes agent.archived), ("created_at", timeBytes agent.createdAt)]

def AgentRevision.bytes (revision : AgentRevision) : Nat :=
  objectBytes [("agent_id", revision.agentId.bytes), ("revision", numberBytes revision.revision),
    ("soul", textBytes revision.soul), ("config_toml", textBytes revision.configToml),
    ("content_hash", textBytes revision.contentHash),
    ("author_host_id", revision.authorHostId.bytes),
    ("created_at", timeBytes revision.createdAt)]

def ReasoningEffort.asStr : ReasoningEffort → String
  | .none => "none"
  | .auto => "auto"
  | .minimal => "minimal"
  | .low => "low"
  | .medium => "medium"
  | .high => "high"
  | .xHigh => "x_high"
  | .max => "max"

def ProviderDefaults.bytes (defaults : ProviderDefaults) : Nat :=
  objectBytes [("model", nullable (defaults.model.map textBytes)),
    ("reasoning", nullable (defaults.reasoning.map fun effort => nameBytes effort.asStr))]

def Session.bytes (session : Session) : Nat :=
  objectBytes [("id", session.id.bytes), ("agent_id", session.agentId.bytes),
    ("host_id", session.hostId.bytes), ("working_directory", textBytes session.workingDirectory),
    ("model_override", nullable (session.modelOverride.map textBytes)),
    ("leaf_entry_id", nullable (session.leafEntryId.map (·.bytes))),
    ("created_at", timeBytes session.createdAt)]

def AcpSessionBinding.bytes (binding : AcpSessionBinding) : Nat :=
  objectBytes [("session_id", binding.sessionId.bytes), ("host_id", binding.hostId.bytes),
    ("harness", textBytes binding.harness),
    ("harness_definition_hash", textBytes binding.harnessDefinitionHash),
    ("acp_session_id", textBytes binding.acpSessionId),
    ("context_version", numberBytes binding.contextVersion),
    ("context_hash", textBytes binding.contextHash),
    ("context_channel", nameBytes binding.contextChannel.asStr),
    ("context_text", textBytes binding.contextText),
    ("context_dispatched", boolBytes binding.contextDispatched),
    ("created_at", timeBytes binding.createdAt),
    ("replaced_at", nullable (binding.replacedAt.map timeBytes)),
    ("last_replacement_reason",
      nullable (binding.lastReplacementReason.map fun reason => nameBytes reason.asStr))]

def EffectRequest.bytes : EffectRequest → Nat
  | .providerCall provider model =>
      objectBytes [("type", nameBytes "provider_call"), ("provider", textBytes provider),
        ("model", textBytes model)]
  | .toolCall call => objectBytes [("type", nameBytes "tool_call"), ("call", call.bytes)]
  | .acpPrompt hostId harness =>
      objectBytes [("type", nameBytes "acp_prompt"), ("host_id", hostId.bytes),
        ("harness", textBytes harness)]
  | .lifecycleHook hook =>
      objectBytes [("type", nameBytes "lifecycle_hook"), ("hook", textBytes hook)]

def EventActorKind.asStr : EventActorKind → String
  | .system => "system"
  | .client => "client"
  | .channel => "channel"
  | .host => "host"
  | .harness => "harness"

def EventActor.bytes (actor : EventActor) : Nat :=
  objectBytes ([("kind", nameBytes actor.kind.asStr)] ++ optional "id" (actor.id.map textBytes))

/-- The fields of a journal payload beside its tag. -/
def JournalEvent.fields : JournalEvent → List (String × Nat)
  | .installationCreated installation => [("installation", installation.bytes)]
  | .relayChanged relayUrl hostId =>
      [("relay_url", nullable (relayUrl.map textBytes))] ++
        optional "host_id" (hostId.map (·.bytes))
  | .hubChanged hostId generation =>
      [("host_id", hostId.bytes), ("generation", numberBytes generation)]
  | .hostEnrolled host => [("host", host.bytes)]
  | .hostRevoked hostId => [("host_id", hostId.bytes)]
  | .hostInvitationCreated invitationId expiresAt secretHash =>
      [("invitation_id", invitationId.bytes), ("expires_at", timeBytes expiresAt),
        ("secret_hash", textBytes secretHash)]
  | .hostInvitationConsumed invitationId hostId =>
      [("invitation_id", invitationId.bytes), ("host_id", hostId.bytes)]
  | .agentCreated agent initialRevision =>
      [("agent", agent.bytes), ("initial_revision", initialRevision.bytes)]
  | .agentRevisionCreated revision => [("revision", revision.bytes)]
  | .agentRenamed slug => [("slug", textBytes slug)]
  | .agentArchived => []
  | .providerDefaultsChanged defaults => [("defaults", defaults.bytes)]
  | .sessionCreated session => [("session", session.bytes)]
  | .sessionModelChanged model => [("model", nullable (model.map textBytes))]
  | .userMessageAppended entryId content metadata source =>
      [("entry_id", entryId.bytes), ("content", content.bytes), ("metadata", metadata.bytes),
        ("source", source.bytes)]
  | .sessionLeafChanged leafEntryId =>
      [("leaf_entry_id", nullable (leafEntryId.map (·.bytes)))]
  | .turnAccepted turnId agentRevision entryId content metadata source =>
      [("turn_id", turnId.bytes), ("agent_revision", numberBytes agentRevision),
        ("entry_id", entryId.bytes), ("content", content.bytes), ("metadata", metadata.bytes),
        ("source", source.bytes)]
  | .turnStarted turnId harness => [("turn_id", turnId.bytes), ("harness", harness.bytes)]
  | .assistantResponseRecorded turnId entryId response =>
      [("turn_id", turnId.bytes), ("entry_id", entryId.bytes), ("response", response.bytes)]
  | .toolCallRequested turnId entryId call =>
      [("turn_id", turnId.bytes), ("entry_id", entryId.bytes), ("call", call.bytes)]
  | .toolExecutionCompleted operationId turnId result =>
      [("operation_id", operationId.bytes), ("turn_id", turnId.bytes), ("result", result.bytes)]
  | .toolResultRecorded turnId entryId result =>
      [("turn_id", turnId.bytes), ("entry_id", entryId.bytes), ("result", result.bytes)]
  | .reasoningRecorded turnId entryId text visibility provenance =>
      [("turn_id", turnId.bytes), ("entry_id", entryId.bytes), ("text", textBytes text),
        ("visibility", nameBytes visibility.asStr), ("provenance", provenance.bytes)]
  | .contextCompacted entryId summary firstKeptEntryId tokensBefore =>
      [("entry_id", entryId.bytes), ("summary", textBytes summary),
        ("first_kept_entry_id", firstKeptEntryId.bytes),
        ("tokens_before", numberBytes tokensBefore)]
  | .harnessObservationRecorded turnId entryId harnessSessionId kind data =>
      [("turn_id", turnId.bytes), ("entry_id", entryId.bytes)] ++
        optional "harness_session_id" (harnessSessionId.map textBytes) ++
        [("kind", textBytes kind), ("data", data.bytes)]
  | .acpBindingChanged binding => [("binding", binding.bytes)]
  | .acpContextDispatched hostId harness contextVersion contextHash channel =>
      [("host_id", hostId.bytes), ("harness", textBytes harness),
        ("context_version", numberBytes contextVersion), ("context_hash", textBytes contextHash),
        ("channel", nameBytes channel.asStr)]
  | .turnCompleted turnId stopReason =>
      [("turn_id", turnId.bytes)] ++ optional "stop_reason" (stopReason.map textBytes)
  | .turnFailed turnId error => [("turn_id", turnId.bytes), ("error", textBytes error)]
  | .turnCancelled turnId => [("turn_id", turnId.bytes)]
  | .turnInterrupted turnId reason => [("turn_id", turnId.bytes), ("reason", textBytes reason)]
  | .effectScheduled operationId turnId effect =>
      [("operation_id", operationId.bytes), ("turn_id", turnId.bytes), ("effect", effect.bytes)]
  | .effectStarted operationId turnId =>
      [("operation_id", operationId.bytes), ("turn_id", turnId.bytes)]
  | .effectSucceeded operationId turnId result =>
      [("operation_id", operationId.bytes), ("turn_id", turnId.bytes)] ++
        optional "result" (result.map (·.bytes))
  | .effectFailed operationId turnId error =>
      [("operation_id", operationId.bytes), ("turn_id", turnId.bytes), ("error", textBytes error)]
  | .effectUncertain operationId turnId reason =>
      [("operation_id", operationId.bytes), ("turn_id", turnId.bytes),
        ("reason", textBytes reason)]

def JournalEvent.bytes (event : JournalEvent) : Nat :=
  objectBytes (("type", nameBytes event.eventType.asStr) :: event.fields)

def JournalSubject.textLength : JournalSubject → Nat
  | .installation id => id.textLength
  | .host id => id.textLength
  | .agent id => id.textLength
  | .session id => id.textLength

def JournalSubject.bytes (subject : JournalSubject) : Nat :=
  objectBytes [("kind", nameBytes subject.kind.asStr), ("id", subject.textLength + 2)]

def CommandId.bytes : CommandId → Nat
  | .operation name commandId => escapedBytes name + 1 + escapedBytes commandId + 2
  | .turn sessionId key => "turn:".toList.length + sessionId.textLength + 1 + escapedBytes key + 2

def JournalEntry.bytes (entry : JournalEntry) : Nat :=
  objectBytes ([("id", entry.id.bytes), ("position", numberBytes entry.position),
    ("subject", entry.subject.bytes), ("event_type", nameBytes entry.payload.eventType.asStr),
    ("recorded_at", timeBytes entry.recordedAt), ("actor", entry.actor.bytes)] ++
    optional "command_id" (entry.commandId.map (·.bytes)) ++
    optional "correlation_id" (entry.correlationId.map textBytes) ++
    [("payload", entry.payload.bytes)])

theorem JournalEntry.payload_le (entry : JournalEntry) : entry.payload.bytes ≤ entry.bytes := by
  have hfield : ("payload", entry.payload.bytes) ∈ [("payload", entry.payload.bytes)] :=
    List.mem_singleton_self _
  exact le_objectBytes "payload" (List.mem_append_right _ hfield)

theorem JournalEvent.field_le (name : String) {event : JournalEvent} {bytes : Nat}
    (hfield : (name, bytes) ∈ event.fields) : bytes ≤ event.bytes :=
  le_objectBytes name (List.mem_cons_of_mem _ hfield)

theorem escapedBytes_append (text text' : String) :
    escapedBytes (text ++ text') = escapedBytes text + escapedBytes text' := by
  simp [escapedBytes, String.toList_append]

/-- A text of plain letters is as long as it is encoded. -/
theorem escapedBytes_replicate (length : Nat) :
    escapedBytes (String.ofList (List.replicate length 'x')) = length := by
  have hchar : charBytes 'x' = 1 := by decide
  simp [escapedBytes, hchar]

end Mews.Protocol
