import Mathlib.Data.String.Basic
import Mews.Router.Providers

/-!
# The responses of OpenAI

A response that came whole is parsed item by item.  Codex always streams: of its body, which
is read to the end first, the event with the completed response is parsed.
-/

namespace Mews.Openai

open Protocol HostProtocol

/-! ## Requests

`toStr` is `serde_json::to_string`.
-/

/-- The item that a message is encoded as. -/
def encode (toStr : Value → String) (provider model : String) (message : ModelMessage) :
    Option Value :=
  match message.content with
  | .text text =>
      let (role, kind) :=
        if message.role = .user then ("user", "input_text") else ("assistant", "output_text")
      some (.object
        [("content", .array [.object [("text", .string text), ("type", .string kind)]]),
          ("role", .string role)])
  | .toolCall callId tool arguments _ =>
      some (.object [("arguments", .string (toStr arguments)), ("call_id", .string callId),
        ("name", .string tool), ("type", .string "function_call")])
  | .toolResult callId _ result isError uncertain =>
      some (.object [("call_id", .string callId),
        ("output", .string (toStr (toolResultForModel result isError uncertain))),
        ("type", .string "function_call_output")])
  | .providerState stateProvider stateModel data =>
      if stateProvider = provider ∧ stateModel = model then some data else none

def messages (toStr : Value → String) (provider model : String) (messages : List ModelMessage) :
    List Value :=
  messages.filterMap (encode toStr provider model)

/-! ## Responses -/

section Responses

variable (library : StreamLibrary) (provider model : String)

/-- The texts of a message, or of the summary of a thought. -/
def texts (item : Value) (key : String) : List String :=
  ((item.items key).getD []).filterMap fun content => content.text "text"

def callPart (item : Value) : Option ModelPart := do
  let id ← item.text "call_id"
  let name ← item.text "name"
  let text ← item.text "arguments"
  match library.fromStr text with
  | .ok arguments => return .toolCall id name arguments none
  | .error _ => none

/-- The item has content that only the provider can read. -/
def isEncrypted (item : Value) : Bool := (item.text "encrypted_content").any (· ≠ "")

def itemParts (item : Value) : List ModelPart :=
  match item.text "type" with
  | some "message" => (texts item "content").map .text
  | some "function_call" => (callPart library item).toList
  | some "reasoning" =>
      ((texts item "summary").map fun text => .reasoning text none) ++
        if isEncrypted item then [.providerState provider model item] else []
  | _ => []

def parse (response : Value) : Except String ModelResponse :=
  match response.items "output" with
  | none => .error "OpenAI response has no output"
  | some output =>
      .ok
        { provider
          model
          api := "responses"
          responseId := response.text "id"
          parts := output.flatMap (itemParts library provider model)
          usage := openaiUsage response
          stopReason := response.text "status" }

/-- `replace("\r\n", "\n")`. -/
def unixLines : List Char → List Char
  | [] => []
  | '\r' :: '\n' :: rest => '\n' :: unixLines rest
  | char :: rest => char :: unixLines rest

/-- `split("\n\n")`; `block` is what has been read of a block, the last character first. -/
def splitBlocks : List Char → List Char → List (List Char)
  | [], block => [block.reverse]
  | '\n' :: '\n' :: rest, block => block.reverse :: splitBlocks rest []
  | char :: rest, block => splitBlocks rest (char :: block)

def stripReturn (line : List Char) : List Char :=
  if line.getLast? = some '\r' then line.dropLast else line

/-- `str::lines`: the return before a line feed is not part of the line. -/
def blockLines (block : List Char) : List (List Char) :=
  let parts := block.splitOn '\n'
  parts.dropLast.map stripReturn ++ (parts.getLast?.toList.filter (· ≠ []))

/-- The data of the first line that has some. -/
def blockData (block : List Char) : Option String :=
  (blockLines block).findSome? fun line =>
    let line := stripReturn line
    if "data: ".toList.isPrefixOf line then some (String.ofList (line.drop 6)) else none

def parseBlocks : List (List Char) → Except String ModelResponse
  | [] => .error "OpenAI Codex stream ended without a completed response"
  | block :: blocks =>
      if maxSseEventBytes < String.utf8Len block then
        .error ("OpenAI stream event exceeds " ++ toString maxSseEventBytes ++ " bytes")
      else
        match blockData block with
        | none | some "[DONE]" => parseBlocks blocks
        | some data =>
            match library.fromStr data with
            | .error _ => .error "invalid OpenAI stream event"
            | .ok event =>
                match event.text "type" with
                | some "response.completed" =>
                    match event.get "response" with
                    | none => .error "completed OpenAI response has no response body"
                    | some response => parse library provider model response
                | some "response.failed" | some "response.incomplete" | some "error" =>
                    .error ((openaiStreamError event).display id)
                | _ => parseBlocks blocks

/-- The blocks of a body. -/
def codexBlocks (body : String) : List (List Char) := splitBlocks (unixLines body.toList) []

def parseSse (body : String) : Except String ModelResponse :=
  parseBlocks library provider model (codexBlocks body)

end Responses

end Mews.Openai
