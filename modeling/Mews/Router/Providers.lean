import Mews.Router.OpenaiStream

/-!
# Responses of the providers

What the adapters of the router have in common: the response that an adapter parses, the
events it is streamed as, and what a model is shown of a tool result.
-/

namespace Mews

open Protocol HostProtocol

inductive ModelPart where
  | text (text : String)
  | reasoning (text : String) (signature : Option String)
  | toolCall (id name : String) (arguments : Value) (thoughtSignature : Option String)
  | providerState (provider model : String) (data : Value)
  deriving DecidableEq, Repr

structure ModelResponse where
  provider : String
  model : String
  api : String
  responseId : Option String
  parts : List ModelPart
  usage : Option ModelUsage
  stopReason : Option String
  deriving DecidableEq, Repr

def ModelPart.event : ModelPart → ModelStreamEvent
  | .text delta => .textDelta delta
  | .reasoning thought signature => .reasoning thought signature
  | .toolCall id name arguments thoughtSignature => .toolCall id name arguments thoughtSignature
  | .providerState provider model data => .providerState provider model data

/-- The stream of a response that came whole. -/
def ModelResponse.events (response : ModelResponse) : List ModelStreamEvent :=
  [.start, .responseMetadata response.provider response.model response.api response.responseId] ++
    response.parts.map ModelPart.event ++
    [.responseCompleted response.usage response.stopReason, .done]

def uncertainEffectInstruction : String :=
  "The external effect may have happened, but its outcome could not be observed. " ++
    "Do not retry automatically; ask the user before repeating the operation."

/-- `tool_result_for_model`. -/
def toolResultForModel (value : Value) (isError uncertain : Bool) : Value :=
  if uncertain then
    .object [("instruction", .string uncertainEffectInstruction), ("is_error", .bool isError),
      ("outcome", .string "uncertain"), ("reason", value)]
  else if isError then
    .object [("error", value), ("is_error", .bool true), ("outcome", .string "error")]
  else value

/-- `str::to_ascii_lowercase`. -/
def toAsciiLowercase (text : String) : String := String.ofList (text.toList.map Char.toLower)

/-- `str::eq_ignore_ascii_case`. -/
def eqIgnoreAsciiCase (left right : String) : Bool :=
  toAsciiLowercase left = toAsciiLowercase right

end Mews
