import Mews.Router.Providers

/-!
# The messages and responses of Gemini

A signature belongs to the part it came with.  It is kept of a thought and of a call.
-/

namespace Mews.Gemini

open Protocol HostProtocol

/-! ## Requests -/

def callValue (callId tool : String) (arguments : Value) (thoughtSignature : Option String) :
    Value :=
  let call : Value := .object [("args", arguments), ("id", .string callId), ("name", .string tool)]
  match thoughtSignature with
  | none => .object [("functionCall", call)]
  | some signature => .object [("functionCall", call), ("thoughtSignature", .string signature)]

/-- The role and the part that a message is encoded as. -/
def encode (targetModel : String) (message : ModelMessage) : Option (String × Value) :=
  match message.content with
  | .text text =>
      some (if message.role = .assistant then "model" else "user",
        .object [("text", .string text)])
  | .toolCall callId tool arguments thoughtSignature =>
      some ("model", callValue callId tool arguments thoughtSignature)
  | .toolResult callId tool result isError uncertain =>
      some ("user", .object [("functionResponse", .object [("id", .string callId),
        ("name", .string tool),
        ("response", .object [("result", toolResultForModel result isError uncertain)])])])
  | .providerState provider model data =>
      if provider = "google" ∧ model = targetModel then some ("model", data) else none

/-- The encoded messages, each with its role and one part. -/
def messages (targetModel : String) (messages : List ModelMessage) : List (String × Value) :=
  messages.filterMap (encode targetModel)

/-- A message as it is sent. -/
def messageValue (message : String × Value) : Value :=
  .object [("parts", .array [message.2]), ("role", .string message.1)]

/-! ## Responses -/

/-- `newId` is the identifier made for a call that has none. -/
def parsePart (newId : String) (part : Value) : Option ModelPart :=
  match part.text "text" with
  | some text =>
      if (part.flag "thought").getD false then
        some (.reasoning text (part.text "thoughtSignature"))
      else some (.text text)
  | none => do
      let call ← part.get "functionCall"
      let name ← call.text "name"
      return .toolCall ((call.text "id").getD newId) name ((call.get "args").getD (.object []))
        (part.text "thoughtSignature")

/-- A step of `Value::pointer` with the token `0`. -/
def firstOf : Value → Option Value
  | .array items => items.head?
  | value => value.get "0"

/-- The parts of the first candidate. -/
def candidateParts (response : Value) : Option (List Value) := do
  let candidate ← (← response.get "candidates") |> firstOf
  (← candidate.get "content").items "parts"

def usage (response : Value) : Option ModelUsage :=
  (response.get "usageMetadata").map fun usage =>
    { inputTokens := ((usage.get "promptTokenCount").bind Value.asU64).getD 0
      outputTokens := ((usage.get "candidatesTokenCount").bind Value.asU64).getD 0
      cachedInputTokens := ((usage.get "cachedContentTokenCount").bind Value.asU64).getD 0
      reasoningTokens := ((usage.get "thoughtsTokenCount").bind Value.asU64).getD 0 }

/-- `newIds` are the identifiers made while the parts are parsed, by their places. -/
def parse (newIds : Nat → String) (model : String) (response : Value) :
    Except String ModelResponse :=
  match candidateParts response with
  | none => .error "Gemini response has no candidate content"
  | some parts =>
      .ok
        { provider := "google"
          model
          api := "generate_content"
          responseId := none
          parts := parts.zipIdx.filterMap fun (part, place) => parsePart (newIds place) part
          usage := usage response
          stopReason := do
            (← (← response.get "candidates") |> firstOf).text "finishReason" }

end Mews.Gemini
