import Mews.Acp.Reasoning
import Mews.Protocol.Serializer

/-!
# Updates of an ACP Turn

A Harness reports what it does in partial updates: chunks of its answer and of its
thoughts, and what it knows by now about a tool call.  The state of a Turn merges them
and passes each on to the event sink as a whole, with a key of its own.
-/

namespace Mews

open Protocol

def maxMetadataBytes : Nat := 16 * 1024

/-- The value, or the beginning of its text. -/
def boundedJson (value : Value) : Value :=
  if value.toText.utf8ByteSize ≤ maxMetadataBytes then value
  else
    .object [("preview", .string (String.ofList (fitting maxMetadataBytes value.toText.toList))),
      ("truncated", .bool true)]

/-! ## The fields of an update -/

/-- `get` and `as_str`. -/
def strAt (value : Value) (key : String) : Option String := (value.get key).bind (·.asStr)

def nonEmptyString (value : Value) (key : String) : Option String :=
  (strAt value key).filter fun text => !isBlank text

def updateKind (update : Value) : Option String := strAt update "sessionUpdate"

def updateMessageId (update : Value) : Option String :=
  (strAt update "messageId").filter (· ≠ "")

def contentText (update : Value) : Option String :=
  ((update.get "content").bind fun content => (strAt content "text").or content.asStr).or
    (strAt update "text")

def updateText (update : Value) : Option String :=
  if updateKind update = some "agent_message_chunk" then contentText update else none

/-! ## Merging -/

/-- A member of an object changes or is inserted in its place. -/
def upsertMember (key : String) (change : Option Value → Value) :
    List (String × Value) → List (String × Value)
  | [] => [(key, change none)]
  | (other, value) :: members =>
      if other = key then (key, change (some value)) :: members
      else if key < other ∧ key ∉ members.map Prod.fst then
        (key, change none) :: (other, value) :: members
      else (other, value) :: upsertMember key change members

/-- Members that a merge passes over. -/
def isVacant (value : Value) : Bool := value.isNull || value.asStr == some ""

mutual

def mergeJson : Value → Value → Value
  | .object current, .object update => .object (mergeMembers current update)
  | current, .null => current
  | _, update => update

def mergeMembers : List (String × Value) → List (String × Value) → List (String × Value)
  | current, [] => current
  | current, (key, value) :: update =>
      if isVacant value then mergeMembers current update
      else
        mergeMembers
          (upsertMember key (fun member => member.elim value fun member => mergeJson member value)
            current)
          update

end

/-! ## The state of a Turn -/

structure ToolActivityState where
  title : String
  kind : Option String
  status : Option String
  input : Value
  deriving DecidableEq

namespace ToolActivityState

def default : ToolActivityState := { title := "", kind := none, status := none, input := .null }

def mergeInput (update input : Value) : Value :=
  match update.get "rawInput" with
  | some raw => mergeJson input (boundedJson raw)
  | none => input

/-- An object is made for what has to be kept in one. -/
def makeRoom (update input : Value) : Value :=
  if ((update.get "rawOutput").isSome || (update.get "locations").isSome) && input.isNull then
    .object []
  else input

/-- A field of the update is kept in the input when that is an object. -/
def keepField (field key : String) (update input : Value) : Value :=
  match input, update.get field with
  | .object members, some value =>
      .object (upsertMember key (fun _ => boundedJson value) members)
  | input, _ => input

def recordInput (input update : Value) : Value :=
  keepField "locations" "_mews_locations" update
    (keepField "rawOutput" "_mews_raw_output" update (makeRoom update (mergeInput update input)))

def record (state : ToolActivityState) (update : Value) : ToolActivityState :=
  { title := (nonEmptyString update "title").getD state.title
    kind := (nonEmptyString update "kind").or state.kind
    status := (nonEmptyString update "status").or state.status
    input := recordInput state.input update }

def activity (state : ToolActivityState) (callId : String) : ToolActivity :=
  { callId, title := if state.title = "" then "Tool call" else state.title
    kind := state.kind, status := state.status, input := state.input }

end ToolActivityState

/-- The events that updates become. -/
inductive AcpStreamEvent where
  | assistantDelta (eventKey delta : String) (messageId : Option String) (raw : Value)
  | reasoningDelta (eventKey delta : String) (messageId : Option String) (raw : Value)
  | toolActivity (eventKey : String) (activity : ToolActivity)
  | providerState (eventKey : String) (data : Value)
  deriving DecidableEq

/-- What the sink says to an event after those it has taken. -/
abbrev EventSink (E : Type) := List AcpStreamEvent → AcpStreamEvent → Except E Unit

structure UpdateState where
  answer : String
  assistantBoundary : Bool
  assistantMessageId : Option String
  tools : OrderedMap String ToolActivityState
  nextEventOrdinal : Nat
  eventKeyPrefix : String

/-- The state with the events that the sink has taken. -/
structure Updated where
  state : UpdateState
  events : List AcpStreamEvent

namespace UpdateState

def forTurn (turnId : String) : UpdateState :=
  { answer := "", assistantBoundary := false, assistantMessageId := none, tools := .empty
    nextEventOrdinal := 0, eventKeyPrefix := turnId }

def eventKey (turnId : String) (ordinal : Nat) : String :=
  turnId ++ (":update:" ++ toString ordinal)

def pushAnswer (state : UpdateState) (text : String) : UpdateState :=
  { state with answer := state.answer ++ text }

/-- The chunk begins another message than the one before. -/
def messageChanged (state : UpdateState) (messageId : Option String) : Bool :=
  match state.assistantMessageId, messageId with
  | some previous, some next => previous ≠ next
  | _, _ => false

end UpdateState

namespace Updated

variable {E : Type} (sink : EventSink E) (update : Value)

/-- An event goes to the sink under the next key. -/
def emit (event : String → AcpStreamEvent) (updated : Updated) : Except E Updated :=
  let ordinal := (updated.state.nextEventOrdinal + 1) % 2 ^ 64
  let event := event (UpdateState.eventKey updated.state.eventKeyPrefix ordinal)
  match sink updated.events event with
  | .error error => .error error
  | .ok () =>
      .ok { state := { updated.state with nextEventOrdinal := ordinal }
            events := updated.events ++ [event] }

def changeState (change : UpdateState → UpdateState) (updated : Updated) : Updated :=
  { updated with state := change updated.state }

/-- What separates two messages of the answer. -/
def separate (messageId : Option String) (updated : Updated) : Except E Updated :=
  if (updated.state.assistantBoundary || updated.state.messageChanged messageId) &&
      updated.state.answer ≠ "" then
    (updated.changeState (·.pushAnswer "\n\n")).emit sink
      fun key => .assistantDelta key "\n\n" messageId (boundedJson update)
  else .ok updated

def applyMessage (updated : Updated) : Except E Updated :=
  match updateText update with
  | none => .ok updated
  | some text =>
      let messageId := updateMessageId update
      match updated.separate sink update messageId with
      | .error error => .error error
      | .ok updated =>
          (updated.changeState fun state =>
            { state with
              assistantBoundary := false
              assistantMessageId := messageId.or state.assistantMessageId
              answer := state.answer ++ text }).emit sink
            fun key => .assistantDelta key text messageId (boundedJson update)

/-- The call of an update of a tool. -/
def callId (update : Value) : Option String := nonEmptyString update "toolCallId"

def applyTool (updated : Updated) : Except E Updated :=
  match callId update with
  | none =>
      (updated.changeState fun state => { state with assistantBoundary := true }).emit sink
        fun key => .providerState key (boundedJson update)
  | some callId =>
      let tool := ((updated.state.tools.get callId).getD .default).record update
      (updated.changeState fun state =>
        { state with
          assistantBoundary := true
          tools := state.tools.upsert callId fun _ => tool }).emit sink
        fun key => .toolActivity key (tool.activity callId)

/-- `UpdateState::apply`. -/
def apply (updated : Updated) : Except E Updated :=
  match updateKind update with
  | some "agent_message_chunk" => updated.applyMessage sink update
  | some "agent_thought_chunk" =>
      match contentText update with
      | none => .ok updated
      | some text =>
          updated.emit sink
            fun key => .reasoningDelta key text (updateMessageId update) (boundedJson update)
  | some "tool_call" | some "tool_call_update" => updated.applyTool sink update
  | some "permission_request" =>
      updated.emit sink fun key => .providerState key (boundedJson update)
  | _ => .ok updated

/-- The updates of a Turn, one after another until the sink fails. -/
def applyAll : List Value → Updated → Except E Updated
  | [], updated => .ok updated
  | update :: updates, updated =>
      match updated.apply sink update with
      | .error error => .error error
      | .ok updated => applyAll updates updated

def start (turnId : String) : Updated := { state := .forTurn turnId, events := [] }

end Updated

end Mews
