import Mews.Protocol.Ids

/-!
# Timeline entries and messages

The durable items of a Session timeline, the messages shown to clients, and
the portable projection used where native provider state is not valid.
-/

namespace Mews.Protocol

inductive MessageRole where
  | user
  | assistant
  | tool
  deriving DecidableEq, Repr

inductive MessageContent where
  | text (text : String)
  | toolCall (callId tool : String) (arguments : Value) (thoughtSignature : Option String)
  | toolResult (callId tool : String) (result : Value) (isError uncertain : Bool)
  | providerState (provider model : String) (data : Value)
  deriving DecidableEq, Repr

inductive SourceKind where
  | client
  | channel
  | harness
  | host
  deriving DecidableEq, Repr

/-- The standalone Channel identity and destination that originated a Turn. -/
structure ChannelOrigin where
  consumerId : ConsumerId
  conversation : String
  deriving DecidableEq, Repr

structure MessageSource where
  kind : SourceKind
  id : String
  channelOrigin : Option ChannelOrigin
  deriving DecidableEq, Repr

structure Message where
  id : MessageId
  sessionId : SessionId
  sequence : Nat
  role : MessageRole
  content : MessageContent
  metadata : Value
  source : MessageSource
  createdAt : DateTime
  deriving DecidableEq, Repr

structure HarnessProvenance where
  name : String
  definitionHash : String
  version : Option String
  deriving DecidableEq, Repr

structure ToolCall where
  callId : String
  tool : String
  arguments : Value
  thoughtSignature : Option String
  deriving DecidableEq, Repr

structure ToolResult where
  callId : String
  tool : String
  result : Value
  isError : Bool
  /-- The effect may have happened, but no definitive result was observed. -/
  uncertain : Bool
  deriving DecidableEq, Repr

inductive ReasoningVisibility where
  | visible
  | redacted
  | omitted
  deriving DecidableEq, Repr

inductive ReasoningProvenance where
  | provider (provider model : String)
  | harness (harness : String) (messageId : Option String)
  deriving DecidableEq, Repr

structure ModelUsage where
  inputTokens : Nat
  outputTokens : Nat
  cachedInputTokens : Nat
  reasoningTokens : Nat
  deriving DecidableEq, Repr

inductive AssistantResponseBlock where
  | text (text : String)
  | reasoning (text : String) (signature : Option String)
  | toolCall (callId tool : String) (arguments : Value) (thoughtSignature : Option String)
  | opaqueState (provider model : String) (data : Value)
  deriving DecidableEq, Repr

/-- One provider invocation.  Blocks remain in provider order. -/
structure AssistantResponse where
  provider : String
  model : String
  api : String
  responseId : Option String
  blocks : List AssistantResponseBlock
  usage : Option ModelUsage
  stopReason : Option String
  deriving DecidableEq, Repr

/-- The concatenated text blocks of a response. -/
def AssistantResponse.text (response : AssistantResponse) : String :=
  String.join (response.blocks.filterMap fun block =>
    match block with
    | .text text => some text
    | _ => none)

inductive SessionEntryPayload where
  | userMessage (content : MessageContent) (metadata : Value) (source : MessageSource)
  | turnStarted (turnId : TurnId) (harness : HarnessProvenance)
  | assistantResponse (turnId : TurnId) (response : AssistantResponse)
  | toolStarted (turnId : TurnId) (call : ToolCall)
  | toolResult (turnId : TurnId) (result : ToolResult)
  | reasoning (turnId : TurnId) (text : String) (visibility : ReasoningVisibility)
      (provenance : ReasoningProvenance)
  | turnCompleted (turnId : TurnId) (stopReason : Option String)
  | turnFailed (turnId : TurnId) (error : String)
  | turnCancelled (turnId : TurnId)
  | contextCompaction (summary : String) (firstKeptEntryId : MessageId) (tokensBefore : Nat)
  | harnessObservation (turnId : TurnId) (harnessSessionId : Option String) (kind : String)
      (data : Value)
  deriving DecidableEq, Repr

/-- Only these two payloads carry an observation key. -/
def SessionEntryPayload.isObservation : SessionEntryPayload → Bool
  | .reasoning .. | .harnessObservation .. => true
  | _ => false

def SessionEntryPayload.isCompaction : SessionEntryPayload → Bool
  | .contextCompaction .. => true
  | _ => false

/-- One durable item in a Session timeline. -/
structure SessionEntry where
  id : MessageId
  sessionId : SessionId
  sequence : Nat
  parentId : Option MessageId
  payload : SessionEntryPayload
  createdAt : DateTime
  deriving DecidableEq, Repr

structure PortableHistoryItem where
  role : MessageRole
  content : MessageContent
  deriving DecidableEq, Repr

def portableBlock : AssistantResponseBlock → Option PortableHistoryItem
  | .text text => some { role := .assistant, content := .text text }
  | .toolCall callId tool arguments _ =>
      some { role := .assistant, content := .toolCall callId tool arguments none }
  | .reasoning .. | .opaqueState .. => none

/-- The text a compaction leaves in place of the history it summarises. -/
def summaryText (summary : String) : String :=
  "[Earlier context summary]\n" ++ summary

def portableItems (entry : SessionEntry) : List PortableHistoryItem :=
  match entry.payload with
  | .userMessage (.text text) _ _ => [{ role := .user, content := .text text }]
  | .userMessage .. => []
  | .assistantResponse _ response => response.blocks.filterMap portableBlock
  | .toolResult _ result =>
      [{ role := .tool
         content := .toolResult result.callId result.tool result.result result.isError
           result.uncertain }]
  | .contextCompaction summary _ _ =>
      [{ role := .user, content := .text (summaryText summary) }]
  | .turnStarted .. | .toolStarted .. | .reasoning .. | .turnCompleted .. | .turnFailed ..
  | .turnCancelled .. | .harnessObservation .. => []

/-- Provider-neutral projection.  It excludes cursor identifiers, signatures,
reasoning and provider state. -/
def portableHistory (entries : List SessionEntry) : List PortableHistoryItem :=
  entries.flatMap portableItems

structure ToolActivity where
  callId : String
  title : String
  kind : Option String
  status : Option String
  input : Value
  deriving DecidableEq, Repr

inductive AcpInstructionChannel where
  | codexDeveloper
  | claudeSystemAppend
  | firstPrompt
  deriving DecidableEq, Repr

inductive AcpReplacementReason where
  | resourceNotFound
  | harnessChanged
  | harnessDefinitionChanged
  | instructionContextChanged
  | historyDiverged
  | contextNotDispatched
  deriving DecidableEq, Repr

inductive AcpBindingTransition where
  | new
  | resume (acpSessionId : String)
  | replace (reason : AcpReplacementReason)
  deriving DecidableEq, Repr

inductive AcpObservation where
  | assistantDelta (delta : String) (messageId : Option String) (raw : Value)
  | completedReasoning (text : String) (messageId : Option String)
      (visibility : ReasoningVisibility)
  | contextDispatched (version : Nat) (hash : String) (channel : AcpInstructionChannel)
      (text : String)
  | bindingChanged (transition : AcpBindingTransition)
  | providerUpdate (data : Value)
  | toolActivity (activity : ToolActivity)
  | hookOutcome (hook : String) (ok : Bool) (detail tool callId : Option String)
  deriving DecidableEq, Repr

def AcpInstructionChannel.asStr : AcpInstructionChannel → String
  | .codexDeveloper => "codex_developer"
  | .claudeSystemAppend => "claude_system_append"
  | .firstPrompt => "first_prompt"

def AcpReplacementReason.asStr : AcpReplacementReason → String
  | .resourceNotFound => "resource_not_found"
  | .harnessChanged => "harness_changed"
  | .harnessDefinitionChanged => "harness_definition_changed"
  | .instructionContextChanged => "instruction_context_changed"
  | .historyDiverged => "history_diverged"
  | .contextNotDispatched => "context_not_dispatched"

def optionalText : Option String → Value
  | some text => .string text
  | none => .null

def AcpBindingTransition.toValue : AcpBindingTransition → Value
  | .new => .object [("mode", .string "new")]
  | .resume acpSessionId =>
      .object [("acp_session_id", .string acpSessionId), ("mode", .string "resume")]
  | .replace reason =>
      .object [("mode", .string "replace"), ("reason", .string reason.asStr)]

def ToolActivity.toValue (activity : ToolActivity) : Value :=
  .object [("call_id", .string activity.callId), ("input", activity.input),
    ("kind", optionalText activity.kind), ("status", optionalText activity.status),
    ("title", .string activity.title)]

def ReasoningVisibility.asStr : ReasoningVisibility → String
  | .visible => "visible"
  | .redacted => "redacted"
  | .omitted => "omitted"

/-- The tagged JSON object an observation is stored as. -/
def AcpObservation.toValue : AcpObservation → Value
  | .assistantDelta delta messageId raw =>
      .object [("delta", .string delta), ("message_id", optionalText messageId), ("raw", raw),
        ("type", .string "assistant_delta")]
  | .completedReasoning text messageId visibility =>
      .object [("message_id", optionalText messageId), ("text", .string text),
        ("type", .string "completed_reasoning"), ("visibility", .string visibility.asStr)]
  | .contextDispatched version hash channel text =>
      .object [("channel", .string channel.asStr), ("hash", .string hash),
        ("text", .string text), ("type", .string "context_dispatched"),
        ("version", .number (toString version))]
  | .bindingChanged transition =>
      .object [("transition", transition.toValue), ("type", .string "binding_changed")]
  | .providerUpdate data =>
      .object [("data", data), ("type", .string "provider_update")]
  | .toolActivity activity =>
      .object [("activity", activity.toValue), ("type", .string "tool_activity")]
  | .hookOutcome hook ok detail tool callId =>
      .object ((callId.toList.map fun id => ("call_id", .string id)) ++
        [("detail", optionalText detail), ("hook", .string hook), ("ok", .bool ok)] ++
        (tool.toList.map fun name => ("tool", .string name)) ++
        [("type", .string "hook_outcome")])

end Mews.Protocol
