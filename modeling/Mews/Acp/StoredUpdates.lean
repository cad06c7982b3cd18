import Mews.Acp.Stdout
import Mews.Acp.UpdateFolding
import Mews.Agent.ContextBudget
import Mews.Protocol.ClientEvents
import Mews.Store.Bindings

/-!
# Updates in the Store

A Turn that runs on the Hub's own Host stores the events of its updates one by one: tool
activities and provider states as observations in the timeline, deltas and activities as
client events, and the answer as a response when the prompt has ended.  An item and an event
have their limits, an update has only that of its line.
-/

namespace Mews

open Protocol

/-- Items and events are as long as they are encoded. -/
def encodedWorld : World :=
  { World.numbered with
    itemBytes := SessionEntryPayload.bytes
    eventBytes := ClientEventBody.bytes }

/-- A Turn whose Harness runs on the Host of the Hub. -/
structure LocalTurn where
  sessionId : SessionId
  turnId : TurnId
  channelOrigin : Option ChannelOrigin
  /-- The Session of the binding. -/
  acpSessionId : Option String
  acpSessionId_le : ∀ id ∈ acpSessionId, id.utf8ByteSize ≤ maxAcpSessionIdBytes
  harness : String
  selectedModel : Option String
  /-- The identifier and the time that an event gets, by its number. -/
  eventId : Nat → EventId
  now : Nat → DateTime

/-- What a successful prompt ends with. -/
structure PromptOutcome where
  acpSessionId : String
  stopReason : AcpStopReason
  /-- Where the answer is recorded in the journal and in the timeline. -/
  eventId : EventId
  position : Nat
  recordedAt : DateTime
  entryId : MessageId
  sequence : Nat
  parentId : Option MessageId

/-- The name of a stop reason in the source. -/
def debugStopReason : AcpStopReason → String
  | .endTurn => "EndTurn"
  | .maxTokens => "MaxTokens"
  | .maxTurnRequests => "MaxTurnRequests"
  | .refusal => "Refusal"
  | .cancelled => "Cancelled"
  | .other => "Other"

def acpResponseModel (selectedModel : Option String) : String := selectedModel.getD "default"

namespace LocalTurn

variable (turn : LocalTurn)

def emitRuntimeSignal (index : Nat) (payload : RuntimeSignalPayload) : Except StoreError Unit :=
  Store.validateClientEvent encodedWorld
    { id := turn.eventId index, sessionId := turn.sessionId, channelOrigin := turn.channelOrigin
      kind := signalKind turn.turnId payload, createdAt := turn.now index }

def appendAcpObservation (observation : AcpObservation) : Except StoreError Unit :=
  validateSessionItem encodedWorld
    (observationItem turn.turnId turn.acpSessionId observation)

/-- `persist_local_acp_event`. -/
def persistLocalAcpEvent : EventSink StoreError
  | taken, .assistantDelta _ delta messageId _ =>
      turn.emitRuntimeSignal taken.length (.assistantDelta delta messageId)
  | _, .providerState _ data => turn.appendAcpObservation (.providerUpdate data)
  | taken, .reasoningDelta _ delta messageId _ =>
      turn.emitRuntimeSignal taken.length (.reasoningDelta delta messageId)
  | taken, .toolActivity _ activity =>
      match turn.appendAcpObservation (.toolActivity activity) with
      | .error error => .error error
      | .ok () => turn.emitRuntimeSignal taken.length (.toolActivity activity)

def response (outcome : PromptOutcome) (answer : String) : AssistantResponse :=
  { provider := turn.harness, model := acpResponseModel turn.selectedModel, api := "acp"
    responseId := some outcome.acpSessionId, blocks := [.text answer], usage := none
    stopReason := some (debugStopReason outcome.stopReason) }

def answerEvent (outcome : PromptOutcome) (answer : String) : JournalEntry :=
  { id := outcome.eventId, position := outcome.position, subject := .session turn.sessionId
    recordedAt := outcome.recordedAt, actor := ⟨.harness, some turn.harness⟩
    commandId := none, correlationId := none
    payload := .assistantResponseRecorded turn.turnId outcome.entryId
      (turn.response outcome answer) }

def answerEntry (outcome : PromptOutcome) (answer : String) : SessionEntry :=
  { id := outcome.entryId, sessionId := turn.sessionId, sequence := outcome.sequence
    parentId := outcome.parentId
    payload := .assistantResponse turn.turnId (turn.response outcome answer)
    createdAt := outcome.recordedAt }

def answerBody (outcome : PromptOutcome) (answer : String) : ClientEventBody :=
  { id := outcome.eventId, sessionId := turn.sessionId, channelOrigin := turn.channelOrigin
    kind := .assistantMessage turn.turnId (Projection.entryMessage
      (turn.answerEvent outcome answer) (turn.answerEntry outcome answer) .assistant
      (.text (turn.response outcome answer).text))
    createdAt := outcome.recordedAt }

/-- The answer as `finish_acp_turn` appends it, with the event of its message. -/
def appendAnswer (outcome : PromptOutcome) (answer : String) : Except StoreError Unit :=
  if answer = "" then .ok ()
  else
    match validateSessionItem encodedWorld (turn.answerEntry outcome answer).payload with
    | .error error => .error error
    | .ok () => Store.validateClientEvent encodedWorld (turn.answerBody outcome answer)

/-- Every event of the updates is stored, and then the answer. -/
def Stores (outcome : PromptOutcome) (updates : List Value) : Prop :=
  ∃ updated,
    (Updated.start turn.turnId.asStr).applyAll turn.persistLocalAcpEvent updates = .ok updated ∧
      turn.appendAnswer outcome updated.state.answer = .ok ()

/-! ## The room for texts -/

/-- What an event carries beside its kind. -/
def frameBytes (createdAt : DateTime) : Nat :=
  (turn.channelOrigin.elim 0 fun origin => origin.bytes + 18) + timeBytes createdAt

/-- A delta is short enough for an event. -/
def DeltaFits (index : Nat) (delta : String) (messageId : Option String) : Prop :=
  264 + turn.frameBytes (turn.now index) + escapedBytes delta +
    nullable (messageId.map textBytes) ≤ maxEventPagePayloadBytes

theorem validateClientEvent_iff (body : ClientEventBody) :
    Store.validateClientEvent encodedWorld body = .ok () ↔
      body.bytes + maxSequenceDigits ≤ maxEventPagePayloadBytes := by
  rw [Store.validateClientEvent, demand]
  split_ifs with hfits
  · exact iff_of_true rfl hfits
  · refine iff_of_false ?_ hfits
    intro hok
    cases hok

theorem bytes_body (body : ClientEventBody) :
    body.bytes = 139 + (body.channelOrigin.elim 0 fun origin => origin.bytes + 18) +
      body.kind.bytes + timeBytes body.createdAt := by
  have hnames : nameBytes "id" = 4 ∧ nameBytes "sequence" = 10 ∧ nameBytes "session_id" = 12 ∧
      nameBytes "kind" = 6 ∧ nameBytes "created_at" = 12 ∧ nameBytes "channel_origin" = 16 := by
    decide
  have hid : body.id.bytes = 42 := rfl
  have hsession : body.sessionId.bytes = 42 := rfl
  rw [ClientEventBody.bytes, hid, hsession]
  cases body.channelOrigin with
  | none =>
      simp only [Protocol.optional, objectBytes, fieldsBytes, hnames, Option.map_none, Option.toList_none,
        List.map_nil, List.append_nil, List.map_cons, List.map_append, List.sum_cons, List.sum_nil,
        List.sum_append, Option.elim_none]
      omega
  | some origin =>
      simp only [Protocol.optional, objectBytes, fieldsBytes, hnames, Option.map_some, Option.toList_some,
        List.map_nil, List.map_cons, List.map_append, List.sum_cons, List.sum_nil,
        List.sum_append, Option.elim_some]
      omega

/-- A text in an event, of the answer or of the reasoning. -/
theorem bytes_delta {type : String} (htype : nameBytes type = 17) (turnId : TurnId) (delta : String)
    (messageId : Option String) :
    deltaBytes type turnId delta messageId =
      105 + escapedBytes delta + nullable (messageId.map textBytes) := by
  have hnames : nameBytes "type" = 6 ∧ nameBytes "turn_id" = 9 ∧ nameBytes "delta" = 7 ∧
      nameBytes "message_id" = 12 := by decide
  have hturn : turnId.bytes = 43 := rfl
  simp only [deltaBytes, objectBytes, fieldsBytes, hnames, htype, hturn, textBytes, List.map_nil,
    List.map_cons, List.sum_cons, List.sum_nil]
  omega

theorem emitRuntimeSignal_assistantDelta {index : Nat} {delta : String}
    {messageId : Option String} :
    turn.emitRuntimeSignal index (.assistantDelta delta messageId) = .ok () ↔
      turn.DeltaFits index delta messageId := by
  rw [emitRuntimeSignal, validateClientEvent_iff, bytes_body, DeltaFits, frameBytes,
    maxSequenceDigits]
  simp only [signalKind, ClientEventKind.bytes,
    bytes_delta (show nameBytes "assistant_delta" = 17 by decide)]
  omega

theorem emitRuntimeSignal_reasoningDelta {index : Nat} {delta : String}
    {messageId : Option String} :
    turn.emitRuntimeSignal index (.reasoningDelta delta messageId) = .ok () ↔
      turn.DeltaFits index delta messageId := by
  rw [emitRuntimeSignal, validateClientEvent_iff, bytes_body, DeltaFits, frameBytes,
    maxSequenceDigits]
  simp only [signalKind, ClientEventKind.bytes,
    bytes_delta (show nameBytes "reasoning_delta" = 17 by decide)]
  omega

/-! ## The room for observations -/

/-- What an observation carries beside its data. -/
def observationBytes : Nat := turn.acpSessionId.elim 0 fun id => textBytes id + 22

/-- The fields of the activity of a call. -/
def callBytes (call : String × List Value) : Nat :=
  textBytes call.1 + textBytes ((lastText "title" call.2).getD "Tool call") +
    nullable ((lastText "kind" call.2).map textBytes) +
    nullable ((lastText "status" call.2).map textBytes) + (foldedInput call.2).bytes

/-- The fields of a call are short enough for an item and for an event. -/
def ActivityFits (index : Nat) (call : String × List Value) : Prop :=
  199 + turn.observationBytes + callBytes call ≤ maxSessionItemBytes ∧
    297 + turn.frameBytes (turn.now index) + callBytes call ≤ maxEventPagePayloadBytes

theorem bytes_activity (activity : ToolActivity) :
    activity.bytes = 48 + (textBytes activity.callId + textBytes activity.title +
      nullable (activity.kind.map textBytes) + nullable (activity.status.map textBytes) +
      activity.input.bytes) := by
  have hnames : nameBytes "call_id" = 9 ∧ nameBytes "title" = 7 ∧ nameBytes "kind" = 6 ∧
      nameBytes "status" = 8 ∧ nameBytes "input" = 7 := by decide
  simp only [ToolActivity.bytes, objectBytes, fieldsBytes, hnames, List.map_nil, List.map_cons,
    List.sum_cons, List.sum_nil]
  omega

theorem bytes_optionalText (text : Option String) :
    (optionalText text).bytes = nullable (text.map textBytes) := by
  cases text <;> rfl

theorem bytes_activityValue (activity : ToolActivity) : activity.toValue.bytes = activity.bytes := by
  have hnames : nameBytes "call_id" = 9 ∧ nameBytes "title" = 7 ∧ nameBytes "kind" = 6 ∧
      nameBytes "status" = 8 ∧ nameBytes "input" = 7 := by decide
  rw [bytes_activity, ToolActivity.toValue,
    bytes_object (by simp only [List.forall_mem_cons]; decide)]
  simp only [objectBytes, fieldsBytes, hnames, bytes_optionalText, Value.bytes, List.map_nil,
    List.map_cons, List.sum_cons, List.sum_nil]
  omega

theorem bytes_activityOf (call : String × List Value) :
    (Updated.activityOf call).bytes = 48 + callBytes call := by
  obtain ⟨htitle, hkind, hstatus, hinput⟩ := folded_record call.2
  have htext : (if (lastText "title" call.2).getD "" = "" then "Tool call"
      else (lastText "title" call.2).getD "") = (lastText "title" call.2).getD "Tool call" := by
    cases hlast : lastText "title" call.2 with
    | none => rfl
    | some title => exact if_neg (lastText_ne_empty hlast)
  rw [bytes_activity, callBytes, Updated.activityOf, ToolActivityState.activity]
  simp only [htitle, hkind, hstatus, hinput, htext]

theorem validateSessionItem_iff' (payload : SessionEntryPayload) :
    validateSessionItem encodedWorld payload = .ok () ↔ payload.bytes ≤ maxSessionItemBytes := by
  rw [validateSessionItem, demand]
  split_ifs with hfits
  · exact iff_of_true rfl hfits
  · refine iff_of_false ?_ hfits
    intro hok
    cases hok

theorem bytes_harnessObservation (kind : String) (data : Value) :
    (SessionEntryPayload.harnessObservation turn.turnId turn.acpSessionId kind data).bytes =
      100 + turn.observationBytes + textBytes kind + data.bytes := by
  have hnames : nameBytes "type" = 6 ∧ nameBytes "turn_id" = 9 ∧ nameBytes "kind" = 6 ∧
      nameBytes "data" = 6 ∧ nameBytes "harness_session_id" = 20 ∧
      nameBytes "harness_observation" = 21 := by decide
  have hturn : turn.turnId.bytes = 43 := rfl
  rw [SessionEntryPayload.bytes, observationBytes, hturn]
  cases turn.acpSessionId with
  | none =>
      simp only [Protocol.optional, objectBytes, fieldsBytes, hnames, Option.map_none,
        Option.toList_none, List.map_nil, List.append_nil, List.map_cons, List.map_append,
        List.sum_cons, List.sum_nil, List.sum_append, Option.elim_none]
      omega
  | some id =>
      simp only [Protocol.optional, objectBytes, fieldsBytes, hnames, Option.map_some,
        Option.toList_some, List.map_nil, List.map_cons, List.map_append, List.sum_cons,
        List.sum_nil, List.sum_append, Option.elim_some]
      omega

/-- An activity goes to the timeline and to the clients. -/
theorem persist_toolActivity {taken : List AcpStreamEvent} {key : String}
    {call : String × List Value} :
    turn.persistLocalAcpEvent taken (.toolActivity key (Updated.activityOf call)) = .ok () ↔
      turn.ActivityFits taken.length call := by
  have hitem : turn.appendAcpObservation (.toolActivity (Updated.activityOf call)) = .ok () ↔
      199 + turn.observationBytes + callBytes call ≤ maxSessionItemBytes := by
    have hnames : nameBytes "activity" = 10 ∧ nameBytes "type" = 6 := by decide
    have hkind : textBytes "tool_activity" = 15 := by decide
    rw [appendAcpObservation, validateSessionItem_iff']
    have hpayload : observationItem turn.turnId turn.acpSessionId
        (.toolActivity (Updated.activityOf call)) = .harnessObservation turn.turnId turn.acpSessionId
          "tool_activity" (AcpObservation.toolActivity (Updated.activityOf call)).toValue := rfl
    rw [hpayload, bytes_harnessObservation, AcpObservation.toValue,
      bytes_object (by simp only [List.forall_mem_cons]; decide)]
    simp only [objectBytes, fieldsBytes, hnames, hkind, bytes_activityValue, bytes_activityOf,
      Value.bytes, List.map_nil, List.map_cons, List.sum_cons, List.sum_nil]
    omega
  have hevent : turn.emitRuntimeSignal taken.length (.toolActivity (Updated.activityOf call)) = .ok () ↔
      297 + turn.frameBytes (turn.now taken.length) + callBytes call ≤
        maxEventPagePayloadBytes := by
    have hnames : nameBytes "type" = 6 ∧ nameBytes "turn_id" = 9 ∧ nameBytes "activity" = 10 ∧
        nameBytes "tool_activity" = 15 := by decide
    have hturn : turn.turnId.bytes = 43 := rfl
    rw [emitRuntimeSignal, validateClientEvent_iff, bytes_body, frameBytes, maxSequenceDigits]
    simp only [signalKind, ClientEventKind.bytes, objectBytes, fieldsBytes, hnames, hturn,
      bytes_activityOf, List.map_nil, List.map_cons, List.sum_cons, List.sum_nil]
    omega
  rw [ActivityFits, ← hitem, ← hevent, persistLocalAcpEvent]
  cases turn.appendAcpObservation (.toolActivity (Updated.activityOf call)) with
  | error error => simp
  | ok stored => simp

/-! ## Provider states -/

theorem charBytes_le (char : Char) : charBytes char ≤ 6 * char.utf8Size := by
  have hpos := char.utf8Size_pos
  rw [charBytes]
  split_ifs
  · omega
  · omega
  · omega

theorem escapedBytes_le (text : String) : escapedBytes text ≤ 6 * text.utf8ByteSize := by
  have hchars (chars : List Char) : (chars.map charBytes).sum ≤ 6 * String.utf8Len chars := by
    induction chars with
    | nil => exact Nat.le_refl 0
    | cons char chars ih =>
        have hchar := charBytes_le char
        rw [List.map_cons, List.sum_cons, String.utf8Len_cons]
        omega
  rw [escapedBytes, ← String.utf8Len_toList]
  exact hchars _

/-- What is bounded stays small. -/
theorem bytes_boundedJson_le (value : Value) : (boundedJson value).bytes ≤ 100000 := by
  rw [boundedJson, Value.utf8ByteSize_toText, maxMetadataBytes]
  split_ifs with hshort
  · omega
  · have hnames : nameBytes "preview" = 9 ∧ nameBytes "truncated" = 11 := by decide
    have hpreview : escapedBytes (String.ofList (fitting (16 * 1024) value.toText.toList)) ≤
        6 * (16 * 1024) := by
      have hfits := utf8Len_fitting_le (16 * 1024) value.toText.toList
      have hescaped := escapedBytes_le (String.ofList (fitting (16 * 1024) value.toText.toList))
      rw [String.utf8ByteSize_ofList] at hescaped
      omega
    rw [bytes_object (by simp only [List.forall_mem_cons]; decide)]
    simp only [objectBytes, fieldsBytes, hnames, Value.bytes, boolBytes, textBytes, List.map_nil,
      List.map_cons, List.sum_cons, List.sum_nil, if_true]
    omega

theorem persist_providerState {taken : List AcpStreamEvent} {key : String} {update : Value} :
    turn.persistLocalAcpEvent taken (.providerState key (boundedJson update)) = .ok () := by
  have hdata := bytes_boundedJson_le update
  have hsession : turn.observationBytes ≤ 24600 := by
    rw [observationBytes]
    cases hid : turn.acpSessionId with
    | none => exact Nat.zero_le _
    | some id =>
        have hlength := turn.acpSessionId_le id hid
        have hescaped := escapedBytes_le id
        rw [maxAcpSessionIdBytes] at hlength
        rw [Option.elim_some, textBytes]
        omega
  have hnames : nameBytes "data" = 6 ∧ nameBytes "type" = 6 := by decide
  have hkind : textBytes "provider_update" = 17 := by decide
  have hpayload : observationItem turn.turnId turn.acpSessionId
      (.providerUpdate (boundedJson update)) = .harnessObservation turn.turnId turn.acpSessionId
        "provider_update" (AcpObservation.providerUpdate (boundedJson update)).toValue := rfl
  rw [persistLocalAcpEvent, appendAcpObservation, validateSessionItem_iff', hpayload,
    bytes_harnessObservation, AcpObservation.toValue,
    bytes_object (by simp only [List.forall_mem_cons]; decide), maxSessionItemBytes]
  simp only [objectBytes, fieldsBytes, hnames, hkind, Value.bytes, List.map_nil, List.map_cons,
    List.sum_cons, List.sum_nil]
  omega

/-! ## The room for the answer -/

/-- What an update adds to the answer, with the two line ends before another message. -/
def answerBytesOf (seen : List Value) (update : Value) : Nat :=
  match updateText update with
  | some text => escapedBytes text + if BeginsMessage seen update then 4 else 0
  | none => 0

def answerBytes (updates : List Value) : Nat := sumUpdates answerBytesOf updates

/-- The texts of the response beside the answer. -/
def responseBytes (outcome : PromptOutcome) : Nat :=
  textBytes turn.harness + textBytes (acpResponseModel turn.selectedModel) +
    textBytes outcome.acpSessionId + textBytes (debugStopReason outcome.stopReason)

/-- What the message of the answer carries beside it. -/
def messageBytes (outcome : PromptOutcome) : Nat :=
  numberBytes outcome.sequence + textBytes turn.harness + timeBytes outcome.recordedAt

/-- The answer is short enough for an item, and for an event with its message. -/
def AnswerFits (outcome : PromptOutcome) (updates : List Value) : Prop :=
  hasAnswer updates = true →
    196 + turn.responseBytes outcome + answerBytes updates ≤ maxSessionItemBytes ∧
      488 + turn.frameBytes outcome.recordedAt + turn.messageBytes outcome +
        answerBytes updates ≤ maxEventPagePayloadBytes

theorem validate_answerEntry {outcome : PromptOutcome} {answer : String} :
    validateSessionItem encodedWorld (turn.answerEntry outcome answer).payload = .ok () ↔
      196 + turn.responseBytes outcome + escapedBytes answer ≤ maxSessionItemBytes := by
  have hnames : nameBytes "type" = 6 ∧ nameBytes "turn_id" = 9 ∧ nameBytes "response" = 10 ∧
      nameBytes "assistant_response" = 20 ∧ nameBytes "provider" = 10 ∧ nameBytes "model" = 7 ∧
      nameBytes "api" = 5 ∧ nameBytes "response_id" = 13 ∧ nameBytes "blocks" = 8 ∧
      nameBytes "stop_reason" = 13 ∧ nameBytes "text" = 6 := by decide
  have hturn : turn.turnId.bytes = 43 := rfl
  have hapi : escapedBytes "acp" = 3 := by decide
  rw [validateSessionItem_iff', responseBytes]
  simp only [answerEntry, SessionEntryPayload.bytes, AssistantResponse.bytes,
    AssistantResponseBlock.bytes, response, Protocol.optional, objectBytes, fieldsBytes,
    arrayBytes, hnames, hturn, hapi, textBytes, Option.map_some, Option.map_none,
    Option.toList_some, Option.toList_none, List.map_nil, List.append_nil, List.map_cons,
    List.map_append, List.sum_cons, List.sum_nil, List.sum_append]
  omega

theorem validate_answerBody {outcome : PromptOutcome} {answer : String} :
    Store.validateClientEvent encodedWorld (turn.answerBody outcome answer) = .ok () ↔
      488 + turn.frameBytes outcome.recordedAt + turn.messageBytes outcome +
        escapedBytes answer ≤ maxEventPagePayloadBytes := by
  have htext : (turn.response outcome answer).text = answer := by
    simp [response, AssistantResponse.text]
  have hnames : nameBytes "type" = 6 ∧ nameBytes "turn_id" = 9 ∧ nameBytes "text" = 6 ∧
      nameBytes "message" = 9 ∧ nameBytes "assistant_message" = 19 ∧ nameBytes "kind" = 6 ∧
      nameBytes "harness" = 9 := by decide
  have hfields : nameBytes "id" = 4 ∧ nameBytes "session_id" = 12 ∧ nameBytes "sequence" = 10 ∧
      nameBytes "role" = 6 ∧ nameBytes "content" = 9 ∧ nameBytes "metadata" = 10 ∧
      nameBytes "source" = 8 ∧ nameBytes "created_at" = 12 ∧ nameBytes "assistant" = 11 := by
    decide
  have hturn : turn.turnId.bytes = 43 := rfl
  have hid : outcome.entryId.bytes = 42 := rfl
  have hsession : turn.sessionId.bytes = 42 := rfl
  have hnull : Value.bytes .null = 4 := rfl
  rw [validateClientEvent_iff, bytes_body, answerBody, htext, frameBytes, maxSequenceDigits,
    messageBytes]
  simp only [ClientEventKind.bytes, messageEventBytes, Message.bytes, Projection.entryMessage,
    answerEntry, answerEvent, messageSourceForEvent, MessageSource.bytes, SourceKind.asStr,
    Protocol.optional, MessageContent.bytes, MessageRole.asStr, objectBytes, fieldsBytes, hnames,
    hfields, hturn, hid, hsession, hnull, textBytes, Option.getD_some, Option.map_none,
    Option.toList_none, List.append_nil, List.map_nil, List.map_cons, List.sum_cons, List.sum_nil]
  omega

theorem appendAnswer_iff {outcome : PromptOutcome} {answer : String} (hanswer : answer ≠ "") :
    turn.appendAnswer outcome answer = .ok () ↔
      196 + turn.responseBytes outcome + escapedBytes answer ≤ maxSessionItemBytes ∧
        488 + turn.frameBytes outcome.recordedAt + turn.messageBytes outcome +
          escapedBytes answer ≤ maxEventPagePayloadBytes := by
  rw [← validate_answerEntry, ← validate_answerBody, appendAnswer, if_neg hanswer]
  cases validateSessionItem encodedWorld (turn.answerEntry outcome answer).payload with
  | error error => simp
  | ok stored => simp

/-! ## The updates of a Turn -/

/-- What an update becomes is short enough. -/
structure UpdateFits (seen : List Value) (update : Value) : Prop where
  text (text : String) (htext : updateText update = some text) :
    turn.DeltaFits (eventCount seen + if BeginsMessage seen update then 1 else 0) text
      (updateMessageId update)
  separator (text : String) (htext : updateText update = some text)
    (hbegins : BeginsMessage seen update) :
    turn.DeltaFits (eventCount seen) "\n\n" (updateMessageId update)
  thought (text : String) (hkind : updateKind update = some "agent_thought_chunk")
    (htext : contentText update = some text) :
    turn.DeltaFits (eventCount seen) text (updateMessageId update)
  activity (callId : String) (hcall : toolCallId update = some callId) :
    turn.ActivityFits (eventCount seen) (callId, callHistory callId seen ++ [update])

/-- What is known of a Turn after the updates that were seen. -/
structure Follows (seen : List Value) (updated : Updated) : Prop where
  told : Updated.Told seen updated
  counted : Counted seen updated
  answer : escapedBytes updated.state.answer = answerBytes seen

section Runs

variable {turn} {seen updates : List Value} {update : Value} {updated after : Updated}
  {draft : Draft}

theorem answer_applies (hanswer : escapedBytes updated.state.answer = answerBytes seen)
    (hcounted : Counted seen updated) (happlies : Updated.Applies update updated after) :
    escapedBytes after.state.answer = answerBytes (seen ++ [update]) := by
  rw [answerBytes, sumUpdates_snoc, ← answerBytes, ← hanswer, answerBytesOf]
  cases happlies with
  | quiet htext => rw [htext]; rfl
  | thought hkind => rw [Updated.updateText_of_kind hkind (by decide)]; rfl
  | permission hkind => rw [Updated.updateText_of_kind hkind (by decide)]; rfl
  | unknown htool => rw [Updated.updateText_of_tool htool]; rfl
  | tool htool => rw [Updated.updateText_of_tool htool]; rfl
  | @message text htext =>
      rw [htext]
      change escapedBytes ((Updated.separated update updated).state.answer ++ text) = _
      rw [escapedBytes_append, Updated.separated]
      by_cases hbegins : BeginsMessage seen update
      · rw [if_pos ((Updated.beginsMessage_iff hcounted).mpr hbegins)]
        change escapedBytes (updated.state.answer ++ "\n\n") + _ = _
        have hbreak : escapedBytes "\n\n" = 4 := by decide
        rw [escapedBytes_append, hbreak]
        simp only [hbegins, if_true]
        omega
      · rw [if_neg (mt (Updated.beginsMessage_iff hcounted).mp hbegins)]
        simp only [hbegins, if_false]
        omega

theorem Follows.applies (hfollows : Follows seen updated)
    (happlies : Updated.Applies update updated after) : Follows (seen ++ [update]) after where
  told := Updated.told_applies hfollows.told happlies
  counted := Updated.counted_applies hfollows.counted happlies
  answer := answer_applies hfollows.answer hfollows.counted happlies

theorem emit_ok_iff {E : Type} (sink : EventSink E) (draft : Draft) (updated : Updated) :
    (∃ after, updated.emit sink draft = .ok after) ↔
      sink updated.events (draft updated.nextKey) = .ok () := by
  rw [Updated.emit, Updated.nextKey]
  dsimp only
  cases sink updated.events (draft _) with
  | error error => simp
  | ok taken => simp

theorem persist_assistantDelta {taken : List AcpStreamEvent} {key delta : String}
    {messageId : Option String} {raw : Value} :
    turn.persistLocalAcpEvent taken (.assistantDelta key delta messageId raw) = .ok () ↔
      turn.DeltaFits taken.length delta messageId :=
  turn.emitRuntimeSignal_assistantDelta

theorem persist_reasoningDelta {taken : List AcpStreamEvent} {key delta : String}
    {messageId : Option String} {raw : Value} :
    turn.persistLocalAcpEvent taken (.reasoningDelta key delta messageId raw) = .ok () ↔
      turn.DeltaFits taken.length delta messageId :=
  turn.emitRuntimeSignal_reasoningDelta

theorem separate_ok_iff (hcounted : Counted seen updated) :
    (∃ apart, updated.separate turn.persistLocalAcpEvent update (updateMessageId update) =
        .ok apart) ↔
      (BeginsMessage seen update →
        turn.DeltaFits (eventCount seen) "\n\n" (updateMessageId update)) := by
  rw [Updated.separate]
  by_cases hbegins : BeginsMessage seen update
  · rw [if_pos ((Updated.beginsMessage_iff hcounted).mpr hbegins), emit_ok_iff,
      persist_assistantDelta, ← hcounted.count]
    simp only [hbegins, true_imp_iff]
    rfl
  · rw [if_neg (mt (Updated.beginsMessage_iff hcounted).mp hbegins)]
    simp [hbegins]

theorem applyMessage_ok_iff (hcounted : Counted seen updated) {text : String}
    (htext : updateText update = some text) :
    (∃ after, updated.applyMessage turn.persistLocalAcpEvent update = .ok after) ↔
      (BeginsMessage seen update →
          turn.DeltaFits (eventCount seen) "\n\n" (updateMessageId update)) ∧
        turn.DeltaFits (eventCount seen + if BeginsMessage seen update then 1 else 0) text
          (updateMessageId update) := by
  rw [← separate_ok_iff hcounted, Updated.applyMessage]
  simp only [htext]
  cases hseparate : updated.separate turn.persistLocalAcpEvent update (updateMessageId update) with
  | error error => simp
  | ok apart =>
      have hlength : (Updated.separated update updated).events.length =
          updated.events.length + if BeginsMessage seen update then 1 else 0 :=
        Updated.length_separated hcounted
      rw [← Updated.eq_of_separate hseparate, hcounted.count] at hlength
      simp only [Except.ok.injEq, exists_eq', true_and]
      rw [emit_ok_iff, persist_assistantDelta]
      change turn.DeltaFits apart.events.length text (updateMessageId update) ↔ _
      rw [hlength]

theorem applyTool_ok_iff (hfollows : Follows seen updated) :
    (∃ after, updated.applyTool turn.persistLocalAcpEvent update = .ok after) ↔
      ∀ callId, Updated.callId update = some callId →
        turn.ActivityFits (eventCount seen) (callId, callHistory callId seen ++ [update]) := by
  rw [Updated.applyTool]
  cases hcall : Updated.callId update with
  | none =>
      simp only [emit_ok_iff, turn.persist_providerState]
      simp
  | some callId =>
      have hactivity : (((updated.state.tools.get callId).getD .default).record update).activity
          callId = Updated.activityOf (callId, callHistory callId seen ++ [update]) := by
        rw [hfollows.told.tools, Updated.activityOf, List.foldl_append]
        rfl
      simp only [emit_ok_iff, hactivity, turn.persist_toolActivity, Option.some.injEq,
        forall_eq']
      change turn.ActivityFits updated.events.length _ ↔ _
      rw [hfollows.counted.count]

theorem thoughtKind_of_text {text : String} (htext : updateText update = some text) :
    updateKind update ≠ some "agent_thought_chunk" := by
  intro hkind
  rw [Updated.updateText_of_kind hkind (by decide)] at htext
  cases htext

theorem toolCallId_of_tool (htool : isToolUpdate update = true) :
    toolCallId update = Updated.callId update := by
  rw [toolCallId, htool, if_pos rfl]

/-- An update of none of the kinds that are measured. -/
theorem updateFits_of_quiet (htext : updateText update = none)
    (hthought : updateKind update ≠ some "agent_thought_chunk" ∨ contentText update = none)
    (hcall : toolCallId update = none) : turn.UpdateFits seen update where
  text text hsome := by
    rw [htext] at hsome
    cases hsome
  separator text hsome := by
    rw [htext] at hsome
    cases hsome
  thought text hkind hsome := by
    rcases hthought with hother | hnone
    · exact absurd hkind hother
    · rw [hnone] at hsome
      cases hsome
  activity callId hsome := by
    rw [hcall] at hsome
    cases hsome

theorem updateFits_message_iff {text : String} (htext : updateText update = some text) :
    turn.UpdateFits seen update ↔
      (BeginsMessage seen update →
          turn.DeltaFits (eventCount seen) "\n\n" (updateMessageId update)) ∧
        turn.DeltaFits (eventCount seen + if BeginsMessage seen update then 1 else 0) text
          (updateMessageId update) := by
  constructor
  · intro hfits
    exact ⟨hfits.separator text htext, hfits.text text htext⟩
  · rintro ⟨hseparator, hdelta⟩
    constructor
    · intro other hother
      rw [htext] at hother
      cases hother
      exact hdelta
    · intro _ _ hbegins
      exact hseparator hbegins
    · intro _ hkind
      exact absurd hkind (thoughtKind_of_text htext)
    · intro callId hcall
      rw [Updated.toolCallId_of_not_tool (Updated.isToolUpdate_of_text htext)] at hcall
      cases hcall

theorem updateFits_tool_iff (htool : isToolUpdate update = true) :
    turn.UpdateFits seen update ↔
      ∀ callId, Updated.callId update = some callId →
        turn.ActivityFits (eventCount seen) (callId, callHistory callId seen ++ [update]) := by
  have hnone := Updated.updateText_of_tool htool
  constructor
  · intro hfits callId hcall
    exact hfits.activity callId ((toolCallId_of_tool htool).trans hcall)
  · intro hactivity
    constructor
    · intro text htext
      rw [hnone] at htext
      cases htext
    · intro text htext
      rw [hnone] at htext
      cases htext
    · intro _ hkind
      have hother : isToolUpdate update = false :=
        Updated.isToolUpdate_of_kind hkind (by decide) (by decide)
      rw [htool] at hother
      cases hother
    · intro callId hcall
      exact hactivity callId ((toolCallId_of_tool htool).symm.trans hcall)

theorem updateFits_thought_iff (hkind : updateKind update = some "agent_thought_chunk")
    {text : String} (htext : contentText update = some text) :
    turn.UpdateFits seen update ↔
      turn.DeltaFits (eventCount seen) text (updateMessageId update) := by
  have hnone : updateText update = none := Updated.updateText_of_kind hkind (by decide)
  constructor
  · intro hfits
    exact hfits.thought text hkind htext
  · intro hdelta
    constructor
    · intro other hother
      rw [hnone] at hother
      cases hother
    · intro other hother
      rw [hnone] at hother
      cases hother
    · intro other _ hother
      rw [htext] at hother
      cases hother
      exact hdelta
    · intro callId hcall
      have htool : isToolUpdate update = false :=
        Updated.isToolUpdate_of_kind hkind (by decide) (by decide)
      rw [Updated.toolCallId_of_not_tool htool] at hcall
      cases hcall

/-- An update is taken if and only if it is short enough. -/
theorem apply_ok_iff (hfollows : Follows seen updated) :
    (∃ after, updated.apply turn.persistLocalAcpEvent update = .ok after) ↔
      turn.UpdateFits seen update := by
  unfold Updated.apply
  split
  case h_1 hkind =>
    cases htext : updateText update with
    | none =>
        have htool : isToolUpdate update = false :=
          Updated.isToolUpdate_of_kind hkind (by decide) (by decide)
        have hthought : updateKind update ≠ some "agent_thought_chunk" := by
          rw [hkind]
          decide
        simp only [Updated.applyMessage, htext, Except.ok.injEq, exists_eq', true_iff]
        exact updateFits_of_quiet htext (Or.inl hthought) (Updated.toolCallId_of_not_tool htool)
    | some text => rw [applyMessage_ok_iff hfollows.counted htext, updateFits_message_iff htext]
  case h_2 hkind =>
    split
    case h_1 htext =>
      have htool : isToolUpdate update = false :=
        Updated.isToolUpdate_of_kind hkind (by decide) (by decide)
      simp only [Except.ok.injEq, exists_eq', true_iff]
      exact updateFits_of_quiet (Updated.updateText_of_kind hkind (by decide)) (Or.inr htext)
        (Updated.toolCallId_of_not_tool htool)
    case h_2 text htext =>
      rw [emit_ok_iff, persist_reasoningDelta, updateFits_thought_iff hkind htext,
        hfollows.counted.count]
  case h_3 hkind =>
    rw [applyTool_ok_iff hfollows, updateFits_tool_iff (by rw [isToolUpdate, hkind]; rfl)]
  case h_4 hkind =>
    rw [applyTool_ok_iff hfollows, updateFits_tool_iff (by rw [isToolUpdate, hkind]; rfl)]
  case h_5 hkind =>
    have htool : isToolUpdate update = false :=
      Updated.isToolUpdate_of_kind hkind (by decide) (by decide)
    have hthought : updateKind update ≠ some "agent_thought_chunk" := by
      rw [hkind]
      decide
    simp only [emit_ok_iff, turn.persist_providerState, true_iff]
    exact updateFits_of_quiet (Updated.updateText_of_kind hkind (by decide)) (Or.inl hthought)
      (Updated.toolCallId_of_not_tool htool)
  case h_6 hchunk hthought hcall hupdate hpermission =>
    have htool : isToolUpdate update = false := by
      simpa [isToolUpdate] using ⟨hcall, hupdate⟩
    simp only [Except.ok.injEq, exists_eq', true_iff]
    exact updateFits_of_quiet (if_neg hchunk) (Or.inl hthought)
      (Updated.toolCallId_of_not_tool htool)

/-- All updates are taken if and only if each is short enough where it stands. -/
theorem applyAll_ok_iff (hfollows : Follows seen updated) :
    (∃ after, updated.applyAll turn.persistLocalAcpEvent updates = .ok after) ↔
      ∀ before update rest, updates = before ++ update :: rest →
        turn.UpdateFits (seen ++ before) update := by
  induction updates generalizing seen updated with
  | nil => simp [Updated.applyAll]
  | cons update updates ih =>
      have hfirst : (∃ next, updated.apply turn.persistLocalAcpEvent update = .ok next) ↔
          turn.UpdateFits seen update := apply_ok_iff hfollows
      rw [Updated.applyAll]
      cases happly : updated.apply turn.persistLocalAcpEvent update with
      | error error =>
          rw [happly] at hfirst
          have hlong : ¬ turn.UpdateFits seen update := by
            rw [← hfirst]
            simp
          constructor
          · rintro ⟨after, hafter⟩
            cases hafter
          · intro hfits
            have hhead := hfits [] update updates rfl
            rw [List.append_nil] at hhead
            exact absurd hhead hlong
      | ok next =>
          have hhead : turn.UpdateFits seen update := hfirst.mp ⟨next, happly⟩
          have hnext := hfollows.applies (Updated.apply_cases happly)
          simp only
          rw [ih hnext]
          constructor
          · intro hrest before later rest hsplit
            cases before with
            | nil =>
                cases hsplit
                rw [List.append_nil]
                exact hhead
            | cons first before =>
                cases hsplit
                have hlater := hrest before later rest rfl
                rw [List.append_assoc] at hlater
                exact hlater
          · intro hall before later rest hsplit
            rw [List.append_assoc]
            exact hall (update :: before) later rest (by rw [hsplit]; rfl)

theorem applyAll_follows (hfollows : Follows seen updated)
    (hrun : updated.applyAll turn.persistLocalAcpEvent updates = .ok after) :
    Follows (seen ++ updates) after :=
  Updated.applyAll_induction Follows seen (fun _ _ _ _ hbefore happlies => hbefore.applies happlies)
    hfollows hrun

theorem follows_start (turnId : String) : Follows [] (Updated.start turnId) where
  told := ⟨fun _ => rfl, rfl⟩
  counted := ⟨by simp [Updated.start, UpdateState.forTurn, hasAnswer], rfl, rfl, rfl⟩
  answer := rfl

end Runs

end LocalTurn

/-! ## A long chunk -/

/-- The line of a message, as the reader takes it. -/
def lineOf (message : Value) : List UInt8 := bytesOf message.toText ++ [Lines.newline]

/-- The updates that the lines carry. -/
def updatesOf (messages : List Value) : List Value :=
  messages.filterMap fun message => (message.get "params").bind (·.get "update")

/-- A chunk of the answer in one line. -/
def chunkMessage (text : String) : Value :=
  .object [("jsonrpc", .string "2.0"), ("method", .string "session/update"),
    ("params", .object [("sessionId", .string "s"),
      ("update", .object [("content", .object [("text", .string text)]),
        ("sessionUpdate", .string "agent_message_chunk")])])]

def plainTurn : LocalTurn where
  sessionId := ⟨"1"⟩
  turnId := ⟨"2"⟩
  channelOrigin := none
  acpSessionId := some "s"
  acpSessionId_le := by decide
  harness := "claude"
  selectedModel := none
  eventId _ := ⟨"3"⟩
  now _ := 0

def endedPrompt : PromptOutcome where
  acpSessionId := "s"
  stopReason := .endTurn
  eventId := ⟨"4"⟩
  position := 1
  recordedAt := 0
  entryId := ⟨"5"⟩
  sequence := 1
  parentId := none

theorem bytes_chunkMessage (text : String) :
    (chunkMessage text).bytes = 141 + escapedBytes text := by
  have hnames : textBytes "jsonrpc" = 9 ∧ textBytes "2.0" = 5 ∧ textBytes "method" = 8 ∧
      textBytes "session/update" = 16 ∧ textBytes "params" = 8 ∧ textBytes "sessionId" = 11 ∧
      textBytes "s" = 3 ∧ textBytes "update" = 8 ∧ textBytes "content" = 9 ∧
      textBytes "text" = 6 ∧ textBytes "sessionUpdate" = 15 ∧
      textBytes "agent_message_chunk" = 21 := by decide
  have htext : textBytes text = escapedBytes text + 2 := rfl
  simp only [chunkMessage, Value.bytes, Value.membersBytes, hnames, htext]
  omega

theorem length_lineOf (message : Value) : (lineOf message).length = message.bytes + 1 := by
  rw [lineOf, List.length_append, List.length_singleton, ← Value.utf8ByteSize_toText]
  rfl

end Mews
