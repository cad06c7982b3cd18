import Mews.Agent.ContextBudget

/-!
# Model requests read back

`serde_json::from_value` of a model request.  Everything of a request comes back but the
history that its continuation keeps for a fallback.
-/

namespace Mews

open Protocol HostProtocol

namespace Protocol

namespace Value

def text (value : Value) (key : String) : Option String := value.get key >>= asStr

/-- A member that may be missing or `null`. -/
def optionalText (value : Value) (key : String) : Option (Option String) :=
  match value.get key with
  | none | some .null => some none
  | some (.string text) => some (some text)
  | some _ => none

def flag (value : Value) (key : String) : Option Bool := value.get key >>= asBool

def items (value : Value) (key : String) : Option (List Value) :=
  match value.get key with
  | some (.array items) => some items
  | _ => none

end Value

/-- The text of an identity names its kind. -/
def TaggedId.ofStr {marker : String} (text : String) : Option (TaggedId marker) :=
  if marker.toList.isPrefixOf text.toList then
    some { uuid := String.ofList (text.toList.drop marker.toList.length) }
  else none

def MessageRole.ofStr : String → Option MessageRole
  | "user" => some .user
  | "assistant" => some .assistant
  | "tool" => some .tool
  | _ => none

def ReasoningEffort.ofStr : String → Option ReasoningEffort
  | "none" => some .none
  | "auto" => some .auto
  | "minimal" => some .minimal
  | "low" => some .low
  | "medium" => some .medium
  | "high" => some .high
  | "x_high" => some .xHigh
  | "max" => some .max
  | _ => none

def MessageContent.ofValue (value : Value) : Option MessageContent := do
  match ← value.text "type" with
  | "text" => return .text (← value.text "text")
  | "tool_call" =>
      return .toolCall (← value.text "call_id") (← value.text "tool") (← value.get "arguments")
        (← value.optionalText "thought_signature")
  | "tool_result" =>
      let uncertain ← match value.get "uncertain" with
        | none => some false
        | some uncertain => uncertain.asBool
      return .toolResult (← value.text "call_id") (← value.text "tool") (← value.get "result")
        (← value.flag "is_error") uncertain
  | "provider_state" =>
      return .providerState (← value.text "provider") (← value.text "model") (← value.get "data")
  | _ => none

end Protocol

def ModelMessage.ofValue (value : Value) : Option ModelMessage := do
  let role ← value.text "role" >>= MessageRole.ofStr
  let content ← value.get "content" >>= MessageContent.ofValue
  return { role, content }

/-- `#[serde(skip)]`: there is nothing for a fallback. -/
def ResponseContinuation.ofValue (value : Value) : Option ResponseContinuation := do
  let responseId ← value.text "response_id"
  let provider ← value.text "provider"
  let model ← value.text "model"
  let api ← value.text "api"
  return { responseId, provider, model, api, fallbackMessages := [] }

def toolOfValue (value : Value) : Option ToolDefinition := do
  let name ← value.text "name"
  let description ← value.text "description"
  let schema ← value.get "schema"
  let agentId ← match ← value.optionalText "agent_id" with
    | none => some none
    | some text => (TaggedId.ofStr text).map some
  return { name, description, schema, agentId }

def ModelRequest.ofValue (value : Value) : Option ModelRequest := do
  let model ← value.text "model"
  let reasoning ← match ← value.optionalText "reasoning" with
    | none => some none
    | some text => (ReasoningEffort.ofStr text).map some
  let system ← value.text "system"
  let messages ← (← value.items "messages").mapM ModelMessage.ofValue
  let tools ← (← value.items "tools").mapM toolOfValue
  let continuation ← match value.get "continuation" with
    | none | some .null => some none
    | some cursor => (ResponseContinuation.ofValue cursor).map some
  return { model, reasoning, system, messages, tools, continuation }

/-! ## What comes back -/

theorem Protocol.TaggedId.ofStr_asStr {marker : String} (id : TaggedId marker) :
    TaggedId.ofStr id.asStr = some id := by
  have hprefix : marker.toList.isPrefixOf id.asStr.toList = true := by
    rw [List.isPrefixOf_iff_prefix, asStr, String.toList_append]
    exact List.prefix_append _ _
  rw [ofStr, if_pos hprefix, asStr, String.toList_append, List.drop_left, String.ofList_toList]

theorem Protocol.MessageRole.ofStr_asStr (role : MessageRole) : ofStr role.asStr = some role := by
  cases role <;> rfl

theorem Protocol.ReasoningEffort.ofStr_asStr (effort : ReasoningEffort) :
    ofStr effort.asStr = some effort := by
  cases effort <;> rfl

theorem Protocol.MessageContent.ofValue_toValue (content : MessageContent) :
    ofValue content.toValue = some content := by
  cases content with
  | text value => rfl
  | toolCall callId tool arguments thoughtSignature => cases thoughtSignature <;> rfl
  | toolResult callId tool result isError uncertain => rfl
  | providerState provider model data => rfl

theorem ModelMessage.ofValue_toValue (message : ModelMessage) :
    ofValue message.toValue = some message := by
  have hrole := MessageRole.ofStr_asStr message.role
  have hcontent := MessageContent.ofValue_toValue message.content
  have hvalue : ofValue message.toValue = (MessageRole.ofStr message.role.asStr).bind fun role =>
      (MessageContent.ofValue message.content.toValue).bind fun content =>
        some { role, content } := rfl
  rw [hvalue, hrole, hcontent]
  rfl

theorem toolOfValue_toolValue (tool : ToolDefinition) :
    toolOfValue (toolValue tool) = some tool := by
  obtain ⟨name, description, schema, agentId⟩ := tool
  cases agentId with
  | none => rfl
  | some agentId =>
      have hvalue : toolOfValue (toolValue { name, description, schema, agentId := some agentId }) =
          ((TaggedId.ofStr agentId.asStr).map some).bind fun agentId =>
            some { name, description, schema, agentId } := rfl
      rw [hvalue, TaggedId.ofStr_asStr]
      rfl

theorem mapM_ofValue {A : Type} {ofValue : Value → Option A} {toValue : A → Value}
    (hback : ∀ item, ofValue (toValue item) = some item) (items : List A) :
    (items.map toValue).mapM ofValue = some items := by
  induction items with
  | nil => rfl
  | cons item items ih =>
      rw [List.map_cons, List.mapM_cons, hback, ih]
      rfl

/-- The history for a fallback is lost, and nothing else. -/
theorem ModelRequest.ofValue_toValue (request : ModelRequest) :
    ofValue request.toValue = some request.serialized := by
  obtain ⟨model, reasoning, system, messages, tools, continuation⟩ := request
  have hmessages := mapM_ofValue ModelMessage.ofValue_toValue messages
  have htools := mapM_ofValue toolOfValue_toolValue tools
  have hvalue : ofValue (toValue { model, reasoning, system, messages, tools, continuation }) =
      (match reasoning with
        | none => some none
        | some effort => (ReasoningEffort.ofStr effort.asStr).map some).bind fun reasoning =>
      ((messages.map ModelMessage.toValue).mapM ModelMessage.ofValue).bind fun messages =>
      ((tools.map toolValue).mapM toolOfValue).bind fun tools =>
        some (serialized { model, reasoning, system, messages, tools, continuation }) := by
    cases reasoning <;> cases continuation <;> rfl
  rw [hvalue, hmessages, htools]
  cases reasoning with
  | none => rfl
  | some effort =>
      dsimp only
      rw [ReasoningEffort.ofStr_asStr]
      rfl

end Mews
