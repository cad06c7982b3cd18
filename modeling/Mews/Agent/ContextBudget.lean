import Mathlib.Data.List.Induction
import Mews.Host.Messages

/-!
# The context budget of a model request

Before a request goes to a provider its history is trimmed to the provider's budget:
the largest recent suffix that begins with a message of the user is kept.
-/

namespace Mews

open Protocol HostProtocol

structure ModelMessage where
  role : MessageRole
  content : MessageContent
  deriving DecidableEq, Repr

structure ResponseContinuation where
  responseId : String
  provider : String
  model : String
  api : String
  /-- What is sent when the cursor is refused; it is not serialized. -/
  fallbackMessages : List ModelMessage
  deriving DecidableEq, Repr

structure ModelRequest where
  model : String
  reasoning : Option ReasoningEffort
  system : String
  messages : List ModelMessage
  tools : List ToolDefinition
  continuation : Option ResponseContinuation
  deriving DecidableEq, Repr

def Protocol.MessageContent.toValue : MessageContent → Value
  | .text value => .object [("text", .string value), ("type", .string "text")]
  | .toolCall callId tool arguments thoughtSignature =>
      .object ([("arguments", arguments), ("call_id", .string callId)] ++
        (thoughtSignature.toList.map fun signature => ("thought_signature", .string signature)) ++
        [("tool", .string tool), ("type", .string "tool_call")])
  | .toolResult callId tool result isError uncertain =>
      .object [("call_id", .string callId), ("is_error", .bool isError), ("result", result),
        ("tool", .string tool), ("type", .string "tool_result"), ("uncertain", .bool uncertain)]
  | .providerState provider model data =>
      .object [("data", data), ("model", .string model), ("provider", .string provider),
        ("type", .string "provider_state")]

def ModelMessage.toValue (message : ModelMessage) : Value :=
  .object [("content", message.content.toValue), ("role", .string message.role.asStr)]

def ResponseContinuation.toValue (continuation : ResponseContinuation) : Value :=
  .object [("api", .string continuation.api), ("model", .string continuation.model),
    ("provider", .string continuation.provider),
    ("response_id", .string continuation.responseId)]

def toolValue (tool : ToolDefinition) : Value :=
  .object ((tool.agentId.toList.map fun agentId => ("agent_id", .string agentId.asStr)) ++
    [("description", .string tool.description), ("name", .string tool.name),
      ("schema", tool.schema)])

def ModelRequest.toValue (request : ModelRequest) : Value :=
  .object ((request.continuation.toList.map fun cursor => ("continuation", cursor.toValue)) ++
    [("messages", .array (request.messages.map (·.toValue))), ("model", .string request.model)] ++
    (request.reasoning.toList.map fun effort => ("reasoning", .string effort.asStr)) ++
    [("system", .string request.system), ("tools", .array (request.tools.map toolValue))])

def ModelMessage.bytes (message : ModelMessage) : Nat :=
  objectBytes [("role", nameBytes message.role.asStr), ("content", message.content.bytes)]

def ResponseContinuation.bytes (continuation : ResponseContinuation) : Nat :=
  objectBytes [("response_id", textBytes continuation.responseId),
    ("provider", textBytes continuation.provider), ("model", textBytes continuation.model),
    ("api", textBytes continuation.api)]

/-! ## Values and their length -/

/-- A name is written as it is. -/
def Plain (name : String) : Prop := escapedBytes name = name.toList.length

instance (name : String) : Decidable (Plain name) := inferInstanceAs (Decidable (_ = _))

theorem membersBytes_eq {members : List (String × Value)}
    (hplain : ∀ member ∈ members, Plain member.1) :
    Value.membersBytes members =
      fieldsBytes (members.map fun member => (member.1, member.2.bytes)) := by
  induction members with
  | nil => rfl
  | cons member members ih =>
      obtain ⟨hmember, hmembers⟩ := List.forall_mem_cons.mp hplain
      have hname : escapedBytes member.1 = member.1.toList.length := hmember
      rw [Value.membersBytes, ih hmembers, textBytes, hname]
      simp only [fieldsBytes, List.map_cons, List.sum_cons, nameBytes]

theorem bytes_object {members : List (String × Value)}
    (hplain : ∀ member ∈ members, Plain member.1) :
    (Value.object members).bytes =
      objectBytes (members.map fun member => (member.1, member.2.bytes)) := by
  rw [Value.bytes, membersBytes_eq hplain]
  rfl

theorem bytes_array (items : List Value) :
    (Value.array items).bytes = arrayBytes (items.map (·.bytes)) := by
  have hitems : Value.itemsBytes items = ((items.map (·.bytes)).map (· + 1)).sum := by
    induction items with
    | nil => rfl
    | cons item items ih => rw [Value.itemsBytes, ih, List.map_cons, List.map_cons, List.sum_cons]
  rw [Value.bytes, hitems, arrayBytes]

theorem textBytes_plain {name : String} (hplain : Plain name) : textBytes name = nameBytes name := by
  have hname : escapedBytes name = name.toList.length := hplain
  rw [textBytes, hname]
  rfl

theorem Protocol.MessageContent.bytes_toValue (content : MessageContent) :
    content.toValue.bytes = content.bytes := by
  cases content with
  | text value =>
      have htype : textBytes "text" = nameBytes "text" := textBytes_plain (by decide)
      rw [toValue, bytes_object (by simp only [List.forall_mem_cons]; decide)]
      simp only [bytes, objectBytes, fieldsBytes, Value.bytes, htype, List.map_cons, List.map_nil,
        List.sum_cons, List.sum_nil]
      omega
  | toolCall callId tool arguments thoughtSignature =>
      have htype : textBytes "tool_call" = nameBytes "tool_call" := textBytes_plain (by decide)
      rw [toValue, bytes_object (by
        cases thoughtSignature <;> simp only [Option.toList, List.map_cons, List.map_nil,
          List.cons_append, List.nil_append, List.forall_mem_cons] <;> decide)]
      cases thoughtSignature <;>
        simp only [bytes, objectBytes, fieldsBytes, Protocol.optional, Value.bytes, htype, Option.toList,
          Option.map_some, Option.map_none, List.cons_append, List.nil_append, List.append_nil,
          List.map_cons, List.map_nil, List.sum_cons, List.sum_nil] <;>
        omega
  | toolResult callId tool result isError uncertain =>
      have htype : textBytes "tool_result" = nameBytes "tool_result" := textBytes_plain (by decide)
      rw [toValue, bytes_object (by simp only [List.forall_mem_cons]; decide)]
      simp only [bytes, objectBytes, fieldsBytes, Value.bytes, htype, List.map_cons, List.map_nil,
        List.sum_cons, List.sum_nil]
      omega
  | providerState provider model data =>
      have htype : textBytes "provider_state" = nameBytes "provider_state" :=
        textBytes_plain (by decide)
      rw [toValue, bytes_object (by simp only [List.forall_mem_cons]; decide)]
      simp only [bytes, objectBytes, fieldsBytes, Value.bytes, htype, List.map_cons, List.map_nil,
        List.sum_cons, List.sum_nil]
      omega

theorem ModelMessage.bytes_toValue (message : ModelMessage) :
    message.toValue.bytes = message.bytes := by
  have hrole : textBytes message.role.asStr = nameBytes message.role.asStr := by
    cases message.role <;> exact textBytes_plain (by decide)
  rw [toValue, bytes_object (by simp only [List.forall_mem_cons]; decide)]
  simp only [bytes, objectBytes, fieldsBytes, Value.bytes, MessageContent.bytes_toValue, hrole,
    List.map_cons, List.map_nil, List.sum_cons, List.sum_nil]
  omega

theorem ResponseContinuation.bytes_toValue (continuation : ResponseContinuation) :
    continuation.toValue.bytes = continuation.bytes := by
  rw [toValue, bytes_object (by simp only [List.forall_mem_cons]; decide)]
  simp only [bytes, objectBytes, fieldsBytes, Value.bytes, List.map_cons, List.map_nil,
    List.sum_cons, List.sum_nil]
  omega

/-- The tools of a request name no Agent. -/
theorem bytes_toolValue {tool : ToolDefinition} (hagent : tool.agentId = none) :
    (toolValue tool).bytes = tool.bytes := by
  rw [toolValue, hagent, bytes_object (by
    simp only [Option.toList, List.map_nil, List.nil_append, List.forall_mem_cons]; decide)]
  simp only [ToolDefinition.bytes, hagent, objectBytes, fieldsBytes, Protocol.optional, Value.bytes,
    Option.toList, Option.map_none, List.nil_append, List.append_nil, List.map_cons, List.map_nil,
    List.sum_cons, List.sum_nil]
  omega

namespace ModelRequest

variable (request : ModelRequest)

/-- The fields of a request, with the length that its history has. -/
def fields (messages : Nat) : List (String × Nat) :=
  [("model", textBytes request.model)] ++
    optional "reasoning" (request.reasoning.map fun effort => nameBytes effort.asStr) ++
    [("system", textBytes request.system), ("messages", messages),
      ("tools", arrayBytes (request.tools.map (·.bytes)))]

/-- `message_array_bytes`. -/
def historyBytes (messages : List ModelMessage) : Nat := arrayBytes (messages.map (·.bytes))

def bytes : Nat :=
  objectBytes (request.fields (historyBytes request.messages) ++
    optional "continuation" (request.continuation.map (·.bytes)))

/-- `FixedRequest`. -/
def fixedBytes : Nat := objectBytes (request.fields (historyBytes []))

def providerOf (model : String) : Option String :=
  if '/' ∈ model.toList then some (String.ofList (model.toList.takeWhile (· ≠ '/'))) else none

def contextBudgetBytes (model : String) : Nat :=
  match providerOf model with
  | some "google" => 2 * 1024 * 1024
  | some "anthropic" => 640 * 1024
  | some "openai" | some "openai-codex" => 384 * 1024
  | _ => 256 * 1024

/-- The messages from the last to the first with their places; `suffixBytes` is the
length of an array of those that have been looked at. -/
def retainedStart (available : Nat) :
    List (ModelMessage × Nat) → Nat → Option Nat → Option Nat
  | [], _, retained => retained
  | (message, index) :: rest, suffixBytes, retained =>
      let suffixBytes := (if 2 < suffixBytes then suffixBytes + 1 else suffixBytes) + message.bytes
      if available < suffixBytes then retained
      else
        retainedStart available rest suffixBytes
          (if message.role = .user then some index else retained)

def applyContextBudget : Except String ModelRequest :=
  let limit := contextBudgetBytes request.model
  if limit < request.fixedBytes then
    .error ("fixed model context exceeds the " ++ toString limit ++ "-byte input budget")
  else
    let available := limit - request.fixedBytes
    if historyBytes request.messages ≤ available then .ok request
    else
      match retainedStart available request.messages.zipIdx.reverse 2 none with
      | some start => .ok { request with messages := request.messages.drop start }
      | none =>
          .error ("latest model turn exceeds the " ++ toString available ++ "-byte history budget")

theorem bytes_toValue {request : ModelRequest}
    (hagent : ∀ tool ∈ request.tools, tool.agentId = none) :
    request.toValue.bytes = request.bytes := by
  have hmessages : (Value.array (request.messages.map (·.toValue))).bytes =
      historyBytes request.messages := by
    rw [bytes_array, List.map_map, historyBytes]
    congr 1
    apply List.map_congr_left
    intro message _
    exact message.bytes_toValue
  have htools : (Value.array (request.tools.map toolValue)).bytes =
      arrayBytes (request.tools.map (·.bytes)) := by
    rw [bytes_array, List.map_map]
    congr 1
    apply List.map_congr_left
    intro tool htool
    exact bytes_toolValue (hagent tool htool)
  have hreasoning (effort : ReasoningEffort) : textBytes effort.asStr = nameBytes effort.asStr := by
    cases effort <;> exact textBytes_plain (by decide)
  rw [toValue, bytes_object (by
    cases request.continuation <;> cases request.reasoning <;>
      simp only [Option.toList, List.map_cons, List.map_nil, List.cons_append, List.nil_append,
        List.forall_mem_cons] <;> decide)]
  rw [bytes, fields]
  cases request.continuation <;> cases request.reasoning <;>
    simp only [objectBytes, fieldsBytes, Protocol.optional, hmessages, htools,
      ResponseContinuation.bytes_toValue, Option.toList, Option.map_some, Option.map_none,
      List.cons_append, List.nil_append, List.append_nil, List.map_cons, List.map_nil,
      List.sum_cons, List.sum_nil] <;>
    simp only [Value.bytes, hreasoning] <;>
    omega

/-! ## What is kept -/

theorem bytes_pos (message : ModelMessage) : 0 < message.bytes := by
  rw [ModelMessage.bytes, objectBytes]
  omega

theorem historyBytes_cons (message : ModelMessage) (messages : List ModelMessage) :
    historyBytes (message :: messages) =
      (if 2 < historyBytes messages then historyBytes messages + 1 else historyBytes messages) +
        message.bytes := by
  have hpos := bytes_pos message
  cases messages with
  | nil =>
      simp [historyBytes, arrayBytes]
      omega
  | cons other messages =>
      have hother := bytes_pos other
      simp only [historyBytes, arrayBytes, List.map_cons, List.sum_cons]
      split_ifs <;> omega

theorem two_le_historyBytes (messages : List ModelMessage) : 2 ≤ historyBytes messages := by
  rw [historyBytes, arrayBytes]
  omega

/-- What is kept begins with the user and fits. -/
def Keeps (available : Nat) (messages : List ModelMessage) (start : Nat) : Prop :=
  historyBytes (messages.drop start) ≤ available ∧
    ∃ message, messages[start]? = some message ∧ message.role = .user

theorem Keeps.of_user {available : Nat} {before seen : List ModelMessage} {message : ModelMessage}
    (hrole : message.role = .user) (hfits : historyBytes (message :: seen) ≤ available) :
    Keeps available (before ++ message :: seen) before.length := by
  refine ⟨?_, message, ?_, hrole⟩
  · rw [List.drop_left]
    exact hfits
  · rw [List.getElem?_append_right (Nat.le_refl _), Nat.sub_self]
    rfl

/-- The scan has seen a suffix that fits, and the best start in it. -/
theorem keeps_of_retainedStart {available start : Nat} {messages before seen : List ModelMessage}
    {retained : Option Nat} (hsplit : messages = before ++ seen)
    (hkept : ∀ start, retained = some start → Keeps available messages start)
    (hstart : retainedStart available before.zipIdx.reverse (historyBytes seen) retained =
      some start) : Keeps available messages start := by
  induction before using List.reverseRecOn generalizing seen retained with
  | nil => exact hkept start hstart
  | append_singleton before message ih =>
      rw [List.zipIdx_append, List.reverse_append] at hstart
      simp only [List.zipIdx_cons, List.zipIdx_nil, List.reverse_singleton, List.singleton_append,
        retainedStart, ← historyBytes_cons] at hstart
      by_cases hlarge : available < historyBytes (message :: seen)
      · rw [if_pos hlarge] at hstart
        exact hkept start hstart
      · rw [if_neg hlarge] at hstart
        have hsplit' : messages = before ++ message :: seen := by
          rw [hsplit, List.append_assoc, List.singleton_append]
        apply ih hsplit' _ hstart
        intro start' hretained
        split_ifs at hretained with hrole
        · obtain rfl := Option.some.inj hretained
          rw [hsplit', Nat.zero_add]
          exact .of_user hrole (Nat.le_of_not_lt hlarge)
        · exact hkept start' hretained

/-- The trimmed request differs in its history alone, which is a suffix of what it was,
and is within the budget. -/
theorem applyContextBudget_ok {request trimmed : ModelRequest}
    (htrim : request.applyContextBudget = .ok trimmed) :
    trimmed = { request with messages := trimmed.messages } ∧
      trimmed.messages <:+ request.messages ∧
      historyBytes trimmed.messages + trimmed.fixedBytes ≤ contextBudgetBytes trimmed.model := by
  rw [applyContextBudget] at htrim
  split_ifs at htrim with hfixed
  dsimp only at htrim
  split_ifs at htrim with hfits
  · obtain rfl := Except.ok.inj htrim
    exact ⟨rfl, List.suffix_rfl, by omega⟩
  · cases hstart : retainedStart (contextBudgetBytes request.model - request.fixedBytes)
        request.messages.zipIdx.reverse 2 none with
    | none => simp [hstart] at htrim
    | some start =>
        rw [hstart] at htrim
        obtain rfl := Except.ok.inj htrim
        have hkeeps := @keeps_of_retainedStart _ start request.messages request.messages [] none
          (List.append_nil _).symm (fun _ hnone => by cases hnone) hstart
        refine ⟨rfl, List.drop_suffix _ _, ?_⟩
        have hkept := hkeeps.1
        change historyBytes (request.messages.drop start) + request.fixedBytes ≤
          contextBudgetBytes request.model
        omega

theorem fixedBytes_plain {request : ModelRequest} (hreasoning : request.reasoning = none)
    (htools : request.tools = []) :
    request.fixedBytes = 49 + escapedBytes request.model + escapedBytes request.system := by
  rw [fixedBytes, fields, hreasoning, htools]
  simp [Protocol.optional, objectBytes, fieldsBytes, nameBytes, textBytes, historyBytes, arrayBytes]
  omega

/-- Without a continuation the budget counts every byte of the request. -/
theorem bytes_eq_fixedBytes {request : ModelRequest} (hcontinuation : request.continuation = none) :
    request.bytes + 2 = request.fixedBytes + historyBytes request.messages := by
  have hempty : historyBytes [] = 2 := by decide
  rw [bytes, fixedBytes, hcontinuation, fields, fields, hempty]
  simp only [objectBytes, fieldsBytes, Protocol.optional, Option.map_none, Option.toList,
    List.map_append, List.map_cons, List.map_nil, List.sum_append, List.sum_cons, List.sum_nil]
  omega

/-- What is left of a request that is serialized and read back. -/
def serialized (request : ModelRequest) : ModelRequest :=
  { request with continuation :=
      request.continuation.map fun cursor => { cursor with fallbackMessages := [] } }

theorem serialized_eq_self {request : ModelRequest}
    (hfallback : ∀ cursor, request.continuation = some cursor → cursor.fallbackMessages = []) :
    request.serialized = request := by
  obtain ⟨model, reasoning, system, messages, tools, continuation⟩ := request
  cases continuation with
  | none => rfl
  | some cursor =>
      have hempty : cursor.fallbackMessages = [] := hfallback cursor rfl
      rw [serialized, Option.map_some, ← hempty]

theorem serialized_of_cursorless {request : ModelRequest}
    (hcursorless : request.continuation = none) : request.serialized = request := by
  apply serialized_eq_self
  intro cursor hcursor
  rw [hcursorless] at hcursor
  cases hcursor

theorem toValue_serialized (request : ModelRequest) :
    request.serialized.toValue = request.toValue := by
  cases hcontinuation : request.continuation <;>
    simp [toValue, serialized, hcontinuation, ResponseContinuation.toValue]

theorem applyContextBudget_serialized (request : ModelRequest) :
    request.serialized.applyContextBudget = request.applyContextBudget.map serialized := by
  have hfixed : request.serialized.fixedBytes = request.fixedBytes := rfl
  have hmodel : request.serialized.model = request.model := rfl
  have hmessages : request.serialized.messages = request.messages := rfl
  rw [applyContextBudget, applyContextBudget, hfixed, hmodel, hmessages]
  split_ifs with hlimit
  · rfl
  · dsimp only
    split_ifs with hfits
    · rfl
    · cases retainedStart (contextBudgetBytes request.model - request.fixedBytes)
        request.messages.zipIdx.reverse 2 none with
      | none => rfl
      | some start => rfl

end ModelRequest

end Mews
