import Mews.Protocol.Messages

/-!
# Journal entries and client events

The semantic facts committed alongside authoritative Hub state, and the events
delivered to subscribed clients.  The event type and the subject type stored
beside a journal payload are functions of that payload, so neither is a field
here; the subject identifier is typed by its kind.
-/

namespace Mews.Protocol

structure Installation where
  id : InstallationId
  publicKey : String
  relayUrl : Option String
  hubHostId : HostId
  generation : Nat
  createdAt : DateTime
  deriving DecidableEq, Repr

structure Host where
  id : HostId
  name : String
  publicKey : String
  noisePublicKey : String
  relayUrl : Option String
  createdAt : DateTime
  deriving DecidableEq, Repr

structure Agent where
  id : AgentId
  slug : String
  currentRevision : Nat
  archived : Bool
  createdAt : DateTime
  deriving DecidableEq, Repr

structure AgentRevision where
  agentId : AgentId
  revision : Nat
  soul : String
  configToml : String
  contentHash : String
  authorHostId : HostId
  createdAt : DateTime
  deriving DecidableEq, Repr

inductive ReasoningEffort where
  | none
  | auto
  | minimal
  | low
  | medium
  | high
  | xHigh
  | max
  deriving DecidableEq, Repr

structure ProviderDefaults where
  model : Option String
  reasoning : Option ReasoningEffort
  deriving DecidableEq, Repr

structure Session where
  id : SessionId
  agentId : AgentId
  hostId : HostId
  workingDirectory : String
  modelOverride : Option String
  /-- The contextual leaf used to reconstruct the active history. -/
  leafEntryId : Option MessageId
  createdAt : DateTime
  deriving DecidableEq, Repr

structure AcpSessionBinding where
  sessionId : SessionId
  hostId : HostId
  harness : String
  harnessDefinitionHash : String
  acpSessionId : String
  contextVersion : Nat
  contextHash : String
  contextChannel : AcpInstructionChannel
  contextText : String
  contextDispatched : Bool
  createdAt : DateTime
  replacedAt : Option DateTime
  lastReplacementReason : Option AcpReplacementReason
  deriving DecidableEq, Repr

/-- The context a Host rendered for an ACP Session.  Only its version reaches
the binding; the rendered text is passed beside it. -/
structure AcpContextSnapshot where
  version : Nat
  deriving DecidableEq, Repr

inductive TurnStatus where
  | running
  | completed
  | failed
  | cancelled
  deriving DecidableEq, Repr

structure Turn where
  id : TurnId
  sessionId : SessionId
  /-- The Agent revision selected when this Turn was accepted. -/
  agentRevision : Nat
  harness : Option String
  harnessDefinitionHash : Option String
  harnessVersion : Option String
  status : TurnStatus
  error : Option String
  createdAt : DateTime
  completedAt : Option DateTime
  deriving DecidableEq, Repr

inductive EventActorKind where
  | system
  | client
  | channel
  | host
  | harness
  deriving DecidableEq, Repr

structure EventActor where
  kind : EventActorKind
  id : Option String
  deriving DecidableEq, Repr

def EventActor.system : EventActor :=
  { kind := .system, id := none }

def EventActor.fromSource (source : MessageSource) : EventActor :=
  { kind :=
      match source.kind with
      | .client => .client
      | .channel => .channel
      | .harness => .harness
      | .host => .host
    id := some source.id }

inductive EffectRequest where
  | providerCall (provider model : String)
  | toolCall (call : ToolCall)
  | acpPrompt (hostId : HostId) (harness : String)
  | lifecycleHook (hook : String)
  deriving DecidableEq, Repr

inductive JournalEvent where
  | installationCreated (installation : Installation)
  | relayChanged (relayUrl : Option String) (hostId : Option HostId)
  | hubChanged (hostId : HostId) (generation : Nat)
  | hostEnrolled (host : Host)
  | hostRevoked (hostId : HostId)
  | hostInvitationCreated (invitationId : InvitationId) (expiresAt : DateTime)
      (secretHash : String)
  | hostInvitationConsumed (invitationId : InvitationId) (hostId : HostId)
  | agentCreated (agent : Agent) (initialRevision : AgentRevision)
  | agentRevisionCreated (revision : AgentRevision)
  | agentRenamed (slug : String)
  | agentArchived
  | providerDefaultsChanged (defaults : ProviderDefaults)
  | sessionCreated (session : Session)
  | sessionModelChanged (model : Option String)
  | userMessageAppended (entryId : MessageId) (content : MessageContent) (metadata : Value)
      (source : MessageSource)
  | sessionLeafChanged (leafEntryId : Option MessageId)
  | turnAccepted (turnId : TurnId) (agentRevision : Nat) (entryId : MessageId)
      (content : MessageContent) (metadata : Value) (source : MessageSource)
  | turnStarted (turnId : TurnId) (harness : HarnessProvenance)
  | assistantResponseRecorded (turnId : TurnId) (entryId : MessageId)
      (response : AssistantResponse)
  | toolCallRequested (turnId : TurnId) (entryId : MessageId) (call : ToolCall)
  | toolExecutionCompleted (operationId : OperationId) (turnId : TurnId) (result : ToolResult)
  | toolResultRecorded (turnId : TurnId) (entryId : MessageId) (result : ToolResult)
  | reasoningRecorded (turnId : TurnId) (entryId : MessageId) (text : String)
      (visibility : ReasoningVisibility) (provenance : ReasoningProvenance)
  | contextCompacted (entryId : MessageId) (summary : String) (firstKeptEntryId : MessageId)
      (tokensBefore : Nat)
  | harnessObservationRecorded (turnId : TurnId) (entryId : MessageId)
      (harnessSessionId : Option String) (kind : String) (data : Value)
  | acpBindingChanged (binding : AcpSessionBinding)
  | acpContextDispatched (hostId : HostId) (harness : String) (contextVersion : Nat)
      (contextHash : String) (channel : AcpInstructionChannel)
  | turnCompleted (turnId : TurnId) (stopReason : Option String)
  | turnFailed (turnId : TurnId) (error : String)
  | turnCancelled (turnId : TurnId)
  | turnInterrupted (turnId : TurnId) (reason : String)
  | effectScheduled (operationId : OperationId) (turnId : TurnId) (effect : EffectRequest)
  | effectStarted (operationId : OperationId) (turnId : TurnId)
  | effectSucceeded (operationId : OperationId) (turnId : TurnId) (result : Option Value)
  | effectFailed (operationId : OperationId) (turnId : TurnId) (error : String)
  | effectUncertain (operationId : OperationId) (turnId : TurnId) (reason : String)
  deriving DecidableEq, Repr

inductive JournalEventType where
  | installationCreated
  | relayChanged
  | hubChanged
  | hostEnrolled
  | hostRevoked
  | hostInvitationCreated
  | hostInvitationConsumed
  | agentCreated
  | agentRevisionCreated
  | agentRenamed
  | agentArchived
  | providerDefaultsChanged
  | sessionCreated
  | sessionModelChanged
  | userMessageAppended
  | sessionLeafChanged
  | turnAccepted
  | turnStarted
  | assistantResponseRecorded
  | toolCallRequested
  | toolExecutionCompleted
  | toolResultRecorded
  | reasoningRecorded
  | contextCompacted
  | harnessObservationRecorded
  | acpBindingChanged
  | acpContextDispatched
  | turnCompleted
  | turnFailed
  | turnCancelled
  | turnInterrupted
  | effectScheduled
  | effectStarted
  | effectSucceeded
  | effectFailed
  | effectUncertain
  deriving DecidableEq, Repr

/-- The stable name persisted beside a payload. -/
def JournalEventType.asStr : JournalEventType → String
  | .installationCreated => "installation_created"
  | .relayChanged => "relay_changed"
  | .hubChanged => "hub_changed"
  | .hostEnrolled => "host_enrolled"
  | .hostRevoked => "host_revoked"
  | .hostInvitationCreated => "host_invitation_created"
  | .hostInvitationConsumed => "host_invitation_consumed"
  | .agentCreated => "agent_created"
  | .agentRevisionCreated => "agent_revision_created"
  | .agentRenamed => "agent_renamed"
  | .agentArchived => "agent_archived"
  | .providerDefaultsChanged => "provider_defaults_changed"
  | .sessionCreated => "session_created"
  | .sessionModelChanged => "session_model_changed"
  | .userMessageAppended => "user_message_appended"
  | .sessionLeafChanged => "session_leaf_changed"
  | .turnAccepted => "turn_accepted"
  | .turnStarted => "turn_started"
  | .assistantResponseRecorded => "assistant_response_recorded"
  | .toolCallRequested => "tool_call_requested"
  | .toolExecutionCompleted => "tool_execution_completed"
  | .toolResultRecorded => "tool_result_recorded"
  | .reasoningRecorded => "reasoning_recorded"
  | .contextCompacted => "context_compacted"
  | .harnessObservationRecorded => "harness_observation_recorded"
  | .acpBindingChanged => "acp_binding_changed"
  | .acpContextDispatched => "acp_context_dispatched"
  | .turnCompleted => "turn_completed"
  | .turnFailed => "turn_failed"
  | .turnCancelled => "turn_cancelled"
  | .turnInterrupted => "turn_interrupted"
  | .effectScheduled => "effect_scheduled"
  | .effectStarted => "effect_started"
  | .effectSucceeded => "effect_succeeded"
  | .effectFailed => "effect_failed"
  | .effectUncertain => "effect_uncertain"

inductive JournalSubjectType where
  | installation
  | host
  | agent
  | session
  deriving DecidableEq, Repr

def JournalSubjectType.asStr : JournalSubjectType → String
  | .installation => "installation"
  | .host => "host"
  | .agent => "agent"
  | .session => "session"

/-- A subject kind together with an identifier of that kind. -/
inductive JournalSubject where
  | installation (id : InstallationId)
  | host (id : HostId)
  | agent (id : AgentId)
  | session (id : SessionId)
  deriving DecidableEq, Repr

namespace JournalSubject

def kind : JournalSubject → JournalSubjectType
  | .installation _ => .installation
  | .host _ => .host
  | .agent _ => .agent
  | .session _ => .session

def id : JournalSubject → String
  | .installation id => id.asStr
  | .host id => id.asStr
  | .agent id => id.asStr
  | .session id => id.asStr

end JournalSubject

namespace JournalEvent

def subjectType : JournalEvent → JournalSubjectType
  | .installationCreated .. | .relayChanged .. | .hubChanged .. | .hostInvitationCreated ..
  | .hostInvitationConsumed .. | .providerDefaultsChanged .. => .installation
  | .hostEnrolled .. | .hostRevoked .. => .host
  | .agentCreated .. | .agentRevisionCreated .. | .agentRenamed .. | .agentArchived => .agent
  | _ => .session

def eventType : JournalEvent → JournalEventType
  | .installationCreated .. => .installationCreated
  | .relayChanged .. => .relayChanged
  | .hubChanged .. => .hubChanged
  | .hostEnrolled .. => .hostEnrolled
  | .hostRevoked .. => .hostRevoked
  | .hostInvitationCreated .. => .hostInvitationCreated
  | .hostInvitationConsumed .. => .hostInvitationConsumed
  | .agentCreated .. => .agentCreated
  | .agentRevisionCreated .. => .agentRevisionCreated
  | .agentRenamed .. => .agentRenamed
  | .agentArchived => .agentArchived
  | .providerDefaultsChanged .. => .providerDefaultsChanged
  | .sessionCreated .. => .sessionCreated
  | .sessionModelChanged .. => .sessionModelChanged
  | .userMessageAppended .. => .userMessageAppended
  | .sessionLeafChanged .. => .sessionLeafChanged
  | .turnAccepted .. => .turnAccepted
  | .turnStarted .. => .turnStarted
  | .assistantResponseRecorded .. => .assistantResponseRecorded
  | .toolCallRequested .. => .toolCallRequested
  | .toolExecutionCompleted .. => .toolExecutionCompleted
  | .toolResultRecorded .. => .toolResultRecorded
  | .reasoningRecorded .. => .reasoningRecorded
  | .contextCompacted .. => .contextCompacted
  | .harnessObservationRecorded .. => .harnessObservationRecorded
  | .acpBindingChanged .. => .acpBindingChanged
  | .acpContextDispatched .. => .acpContextDispatched
  | .turnCompleted .. => .turnCompleted
  | .turnFailed .. => .turnFailed
  | .turnCancelled .. => .turnCancelled
  | .turnInterrupted .. => .turnInterrupted
  | .effectScheduled .. => .effectScheduled
  | .effectStarted .. => .effectStarted
  | .effectSucceeded .. => .effectSucceeded
  | .effectFailed .. => .effectFailed
  | .effectUncertain .. => .effectUncertain

/-- The identifier duplicated inside a payload names its subject. -/
def validateSubjectId (event : JournalEvent) (subject : JournalSubject) :
    Except String Unit :=
  match event, subject with
  | .installationCreated installation, .installation id =>
      if installation.id = id then .ok ()
      else .error "Installation event identity does not match its subject"
  | .hostEnrolled host, .host id =>
      if host.id = id then .ok ()
      else .error "Host event identity does not match its subject"
  | .hostRevoked hostId, .host id =>
      if hostId = id then .ok ()
      else .error "Host event identity does not match its subject"
  | .agentCreated agent initialRevision, .agent id =>
      if agent.id = id ∧ initialRevision.agentId = id then .ok ()
      else .error "Agent event identity does not match its subject"
  | .agentRevisionCreated revision, .agent id =>
      if revision.agentId = id then .ok ()
      else .error "Agent event identity does not match its subject"
  | .sessionCreated session, .session id =>
      if session.id = id then .ok ()
      else .error "Session payload identity does not match its subject"
  | .acpBindingChanged binding, .session id =>
      if binding.sessionId = id then .ok ()
      else .error "Session payload identity does not match its subject"
  | _, _ => .ok ()

/-- The Turn a payload names, used as the default correlation. -/
def payloadTurnId : JournalEvent → Option TurnId
  | .turnAccepted turnId .. | .turnStarted turnId .. | .assistantResponseRecorded turnId ..
  | .toolCallRequested turnId .. | .toolExecutionCompleted _ turnId ..
  | .toolResultRecorded turnId .. | .reasoningRecorded turnId ..
  | .harnessObservationRecorded turnId .. | .turnCompleted turnId .. | .turnFailed turnId ..
  | .turnCancelled turnId | .turnInterrupted turnId .. | .effectScheduled _ turnId ..
  | .effectStarted _ turnId | .effectSucceeded _ turnId .. | .effectFailed _ turnId ..
  | .effectUncertain _ turnId .. => some turnId
  | _ => none

end JournalEvent

/-- A command identifier by the parts of its text: `operation:id` for an
application command and `turn:session:key` for Turn acceptance.  No operation
is called `turn`, so the two texts never coincide. -/
inductive CommandId where
  | operation (name commandId : String)
  | turn (sessionId : SessionId) (key : String)
  deriving DecidableEq, Repr

def CommandId.asStr : CommandId → String
  | .operation name commandId => name ++ ":" ++ commandId
  | .turn sessionId key => "turn:" ++ sessionId.asStr ++ ":" ++ key

/-- One semantic fact committed alongside authoritative Hub state. -/
structure JournalEntry where
  id : EventId
  position : Nat
  subject : JournalSubject
  recordedAt : DateTime
  actor : EventActor
  commandId : Option CommandId
  correlationId : Option String
  payload : JournalEvent
  deriving DecidableEq, Repr

/-- Rejects an envelope that does not describe its payload. -/
def JournalEntry.validate (entry : JournalEntry) : Except String Unit :=
  if entry.subject.kind = entry.payload.subjectType then
    entry.payload.validateSubjectId entry.subject
  else .error "journal subject type does not match payload"

inductive RuntimeSignalPayload where
  | assistantDelta (delta : String) (messageId : Option String)
  | reasoningDelta (delta : String) (messageId : Option String)
  | toolActivity (activity : ToolActivity)
  deriving DecidableEq, Repr

/-- A live-only signal.  It is never written to the journal. -/
structure RuntimeSignal where
  id : EventId
  sessionId : SessionId
  turnId : TurnId
  channelOrigin : Option ChannelOrigin
  emittedAt : DateTime
  payload : RuntimeSignalPayload
  deriving DecidableEq, Repr

inductive ClientEventKind where
  | turnStarted (turnId : TurnId)
  | assistantDelta (turnId : TurnId) (delta : String) (messageId : Option String)
  | reasoningDelta (turnId : TurnId) (delta : String) (messageId : Option String)
  | toolActivity (turnId : TurnId) (activity : ToolActivity)
  | assistantMessage (turnId : TurnId) (message : Message)
  | toolStarted (turnId : TurnId) (message : Message)
  | toolCompleted (turnId : TurnId) (message : Message)
  | turnCompleted (turnId : TurnId)
  | turnFailed (turnId : TurnId) (error : String)
  | turnCancelled (turnId : TurnId)
  deriving DecidableEq, Repr

def ClientEventKind.turnId : ClientEventKind → TurnId
  | .turnStarted turnId | .assistantDelta turnId .. | .reasoningDelta turnId ..
  | .toolActivity turnId .. | .assistantMessage turnId .. | .toolStarted turnId ..
  | .toolCompleted turnId .. | .turnCompleted turnId | .turnFailed turnId ..
  | .turnCancelled turnId => turnId

/-- A client event without the sequence it is delivered under. -/
structure ClientEventBody where
  id : EventId
  sessionId : SessionId
  channelOrigin : Option ChannelOrigin
  kind : ClientEventKind
  createdAt : DateTime
  deriving DecidableEq, Repr

structure ClientEvent where
  sequence : Nat
  body : ClientEventBody
  deriving DecidableEq, Repr

inductive ConsumerKind where
  | durable
  | ephemeral
  deriving DecidableEq, Repr

structure EventBatch where
  events : List ClientEvent
  /-- Acknowledging this advances past the events of the batch. -/
  checkpoint : Nat
  advanced : Bool
  deriving DecidableEq, Repr

end Mews.Protocol
