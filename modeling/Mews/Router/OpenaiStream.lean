import Mews.Agent.ProviderCalls
import Mews.Agent.RequestValues
import Mews.Core.Occurrences

/-!
# The event stream of OpenAI

The body of a streamed response arrives in chunks.  They are collected in a buffer, from
which frames are taken as long as one is complete; a frame is decoded and becomes an item of
the model stream.
-/

namespace Mews

open Protocol HostProtocol Occurrences

abbrev StreamItem := Except ProviderError ModelStreamEvent

def maxSseEventBytes : Nat := 1024 * 1024

def sseEventTooLarge : ProviderError :=
  .invalidResponse ("OpenAI stream event exceeds " ++ toString maxSseEventBytes ++ " bytes")

/-! ## Frames -/

/-- `\r\n\r\n`. -/
def crlfDelimiter : List UInt8 := [13, 10, 13, 10]

/-- `\n\n`. -/
def lfDelimiter : List UInt8 := [10, 10]

/-- Where the first frame ends and how long its delimiter is. -/
def sseFrameEnd (buffer : List UInt8) : Option (Nat × Nat) :=
  match position crlfDelimiter buffer with
  | some frameEnd => some (frameEnd, 4)
  | none => (position lfDelimiter buffer).map fun frameEnd => (frameEnd, 2)

/-! ## Events -/

/-- `Value::pointer` with names of members. -/
def Protocol.Value.pointer (value : Value) (path : List String) : Option Value :=
  path.foldlM Value.get value

def Protocol.Value.asU64 : Value → Option Nat
  | .number literal => literal.toNat?.filter (· < 2 ^ 64)
  | _ => none

def openaiUsage (response : Value) : Option ModelUsage :=
  (response.get "usage").map fun usage =>
    { inputTokens := ((usage.get "input_tokens").bind Value.asU64).getD 0
      outputTokens := ((usage.get "output_tokens").bind Value.asU64).getD 0
      cachedInputTokens :=
        ((usage.pointer ["input_tokens_details", "cached_tokens"]).bind Value.asU64).getD 0
      reasoningTokens :=
        ((usage.pointer ["output_tokens_details", "reasoning_tokens"]).bind Value.asU64).getD 0 }

def openaiStreamError (event : Value) : ProviderError :=
  let eventType := (event.text "type").getD "error"
  let detail := ([["response", "error", "message"], ["response", "incomplete_details", "reason"],
    ["error", "message"], ["message"]].findSome? fun path =>
      (event.pointer path).bind Value.asStr).getD "provider reported a terminal error"
  .invalidResponse ("OpenAI " ++ eventType ++ ": " ++ detail)

/-- What the reader does with a frame. -/
inductive FrameStep where
  | next (item : Option ModelStreamEvent)
  /-- It sends the items and returns. -/
  | last (items : List StreamItem)
  deriving DecidableEq

/-- What the libraries make of a text or of bytes. -/
structure StreamLibrary where
  /-- `serde_json::from_str::<Value>`. -/
  fromStr : String → Except String Value
  /-- `FromUtf8Error`. -/
  utf8Error : List UInt8 → String

section Stream

variable (library : StreamLibrary) (stateProvider stateModel : String)

def functionCall (item : Value) : Option ModelStreamEvent := do
  let id ← item.text "call_id"
  let name ← item.text "name"
  let arguments ← item.text "arguments"
  match library.fromStr arguments with
  | .ok arguments => return .toolCall id name arguments none
  | .error _ => none

def encryptedReasoning (item : Value) : Option ModelStreamEvent :=
  match item.text "encrypted_content" with
  | none | some "" => none
  | some _ => some (.providerState stateProvider stateModel item)

/-- An item of the response that is complete. -/
def outputItem (event : Value) : Option ModelStreamEvent :=
  match (event.pointer ["item", "type"]).bind Value.asStr with
  | some "function_call" => (event.get "item").bind (functionCall library)
  | some "reasoning" => (event.get "item").bind (encryptedReasoning stateProvider stateModel)
  | _ => none

def readEvent (event : Value) : FrameStep :=
  match event.text "type" with
  | some "response.failed" | some "response.incomplete" | some "error" =>
      .last [.error (openaiStreamError event)]
  | some "response.created" =>
      .next ((event.get "response").map fun response =>
        .responseMetadata stateProvider stateModel "responses" (response.text "id"))
  | some "response.output_text.delta" => .next ((event.text "delta").map .textDelta)
  | some "response.reasoning_summary_text.delta" =>
      .next ((event.text "delta").map fun text => .reasoning text none)
  | some "response.output_item.done" =>
      .next (outputItem library stateProvider stateModel event)
  | some "response.completed" =>
      let response := (event.get "response").getD .null
      .last [.ok (.responseCompleted (openaiUsage response) (response.text "status")), .ok .done]
  | _ => .next none

/-- `str::lines`, of a text without carriage returns. -/
def textLines (text : List Char) : List (List Char) :=
  let parts := text.splitOn '\n'
  if parts.getLast? = some [] then parts.dropLast else parts

/-- `strip_prefix("data: ")` of the first line that has it. -/
def dataLine (text : List Char) : Option String :=
  (textLines text).findSome? fun line =>
    if "data: ".toList.isPrefixOf line then some (String.ofList (line.drop 6)) else none

/-- A frame is decoded and read. -/
def readFrame (block : List UInt8) : FrameStep :=
  match String.fromUTF8? (ByteArray.mk block.toArray) with
  | none =>
      .last [.error (.invalidResponse
        ("OpenAI stream is not UTF-8: " ++ library.utf8Error block))]
  | some text =>
      match dataLine (text.toList.filter (· ≠ '\r')) with
      | none | some "[DONE]" => .next none
      | some data =>
          match library.fromStr data with
          | .ok event => readEvent library stateProvider stateModel event
          | .error error =>
              .last [.error (.invalidResponse ("invalid OpenAI stream event: " ++ error))]

/-! ## The reader -/

/-- The frames that were read and the items that were sent. -/
structure StreamOutput where
  blocks : List (List UInt8)
  items : List StreamItem
  deriving DecidableEq

namespace StreamOutput

def fails (error : ProviderError) : StreamOutput := { blocks := [], items := [.error error] }

/-- A frame that was read before the rest. -/
def after (block : List UInt8) (item : Option ModelStreamEvent) (output : StreamOutput) :
    StreamOutput :=
  { blocks := block :: output.blocks, items := item.toList.map .ok ++ output.items }

end StreamOutput

/-- The inner loop: what is sent from then on, if `read` tells what is sent once the rest of
the buffer has no complete frame. -/
def drainFrames (read : List UInt8 → StreamOutput) : Nat → List UInt8 → StreamOutput
  | 0, buffer => read buffer
  | fuel + 1, buffer =>
      match sseFrameEnd buffer with
      | none => read buffer
      | some (frameEnd, delimiterLen) =>
          if maxSseEventBytes < frameEnd then .fails sseEventTooLarge
          else
            match readFrame library stateProvider stateModel (buffer.take frameEnd) with
            | .last items => { blocks := [buffer.take frameEnd], items }
            | .next item =>
                (drainFrames read fuel (buffer.drop (frameEnd + delimiterLen))).after
                  (buffer.take frameEnd) item

/-- The outer loop, over what the connection yields.  Each frame takes at least two bytes from
the buffer. -/
def readChunks : List (Except String (List UInt8)) → List UInt8 → StreamOutput
  | [], _ => .fails (.invalidResponse "OpenAI stream ended before response.completed")
  | .error error :: _, _ => .fails (.http error)
  | .ok chunk :: chunks, buffer =>
      drainFrames library stateProvider stateModel
        (fun rest =>
          if maxSseEventBytes < rest.length then .fails sseEventTooLarge
          else readChunks chunks rest)
        (buffer ++ chunk).length (buffer ++ chunk)

/-- Everything that the reader sends, to a receiver that takes it. -/
def openaiResponseStream (chunks : List (Except String (List UInt8))) : StreamOutput :=
  let output := readChunks library stateProvider stateModel chunks []
  { output with items := .ok .start :: output.items }

end Stream

end Mews
