import Mews.Agent.KeptSuffix
import Mews.Agent.Outcomes
import Mews.Core.Transaction

/-!
# Provider calls

`stream_response` sends a model request to its provider and reads the events that come
back.  A continuation cursor that is refused before any output costs one more call, of the
full history.  The log holds what crossed the boundary of the loop, in order; everything that
is not the loop's own doing is a question to the world, which may look at the log.
-/

namespace Mews

open Protocol HostProtocol

inductive ModelStreamEvent where
  | start
  | responseMetadata (provider model api : String) (responseId : Option String)
  | textDelta (delta : String)
  | reasoning (text : String) (signature : Option String)
  | toolCall (id name : String) (arguments : Value) (thoughtSignature : Option String)
  | providerState (provider model : String) (data : Value)
  | responseCompleted (usage : Option ModelUsage) (stopReason : Option String)
  | done
  deriving DecidableEq, Repr

inductive ProviderError where
  | invalidRequest (text : String)
  | authentication (text : String)
  | unsupportedProvider (name : String)
  | rateLimited (retryAfter : Option Nat)
  | http (text : String)
  | invalidResponse (text : String)
  | cancelled
  | cursorRejected (text : String)
  deriving DecidableEq, Repr

namespace ProviderError

/-- `debug` quotes a name. -/
def display (debug : String → String) : ProviderError → String
  | .invalidRequest text => "invalid model request: " ++ text
  | .authentication text => "provider authentication failed: " ++ text
  | .unsupportedProvider name => "unsupported provider " ++ debug name
  | .rateLimited none => "provider rate limited the request"
  | .rateLimited (some seconds) =>
      "provider rate limited the request; retry after " ++ toString seconds ++ "s"
  | .http text => "provider request failed: " ++ text
  | .invalidResponse text => "invalid provider response: " ++ text
  | .cancelled => "provider operation was cancelled"
  | .cursorRejected text =>
      "provider continuation cursor is missing, expired, or incompatible: " ++ text

def isCursorRejected : ProviderError → Bool
  | .cursorRejected _ => true
  | _ => false

end ProviderError

inductive ProviderCallOutcome where
  | succeeded
  | failed (text : String)
  | uncertain (text : String)
  deriving DecidableEq, Repr

/-- `provider_error_outcome`. -/
def ProviderError.outcome (debug : String → String) (error : ProviderError) :
    ProviderCallOutcome :=
  match error with
  | .http _ | .invalidResponse _ | .cancelled => .uncertain (error.display debug)
  | _ => .failed (error.display debug)

/-- `mews_agent::ToolCall`. -/
structure AgentToolCall where
  id : String
  name : String
  arguments : Value
  thoughtSignature : Option String
  catalogGeneration : Nat
  deriving DecidableEq, Repr

inductive AgentSignal where
  | assistantStarted
  | assistantTextDelta (delta : String)
  deriving DecidableEq, Repr

/-- An error of the loop, which can be asked whether it is the provider's. -/
inductive CallFailure where
  | provider (error : ProviderError)
  | failure (failure : Failure)
  deriving DecidableEq, Repr

def CallFailure.isCursorRejected : CallFailure → Bool
  | .provider error => error.isCursorRejected
  | .failure _ => false

inductive CallEvent where
  | started (request : ModelRequest) (operation : Option OperationId)
  | dispatched (request : ModelRequest)
  | refused (error : ProviderError)
  | polled (item : Except ProviderError ModelStreamEvent)
  | ended
  | cancelled
  | signalled (signal : AgentSignal)
  | finished (operation : OperationId) (outcome : ProviderCallOutcome)

/-- What the loop gets when it waits for a stream or for the cancellation of its Turn. -/
inductive Poll where
  | cancelled
  | item (item : Except ProviderError ModelStreamEvent)

/-- What it gets when it waits for the provider to open a stream.  After its last poll the
stream has ended. -/
inductive Dispatch where
  | cancelled
  | failed (error : ProviderError)
  | streaming (polls : List Poll)

/-- The provider, the callbacks of the runtime and the cancellation token. -/
structure ProviderWorld where
  cancelled : List CallEvent → Bool
  callStarted : List CallEvent → ModelRequest → Except Failure (Option OperationId)
  callFinished : List CallEvent → OperationId → ProviderCallOutcome → Except Failure Unit
  signal : List CallEvent → AgentSignal → Except Failure Unit
  /-- A provider is given the request without the history kept for a fallback. -/
  stream : List CallEvent → ModelRequest → Dispatch
  debug : String → String

/-- The callbacks of the runtime do not fail. -/
structure ProviderWorld.Reliable (world : ProviderWorld) : Prop where
  started : ∀ log request, (world.callStarted log request).isOk = true
  finished : ∀ log operation outcome, world.callFinished log operation outcome = .ok ()
  signal : ∀ log signal, world.signal log signal = .ok ()

/-! ## The response that is read -/

/-- `response`, `calls`, `started`, `provider_execution_observed` and `completed`. -/
structure Reading where
  response : AssistantResponse
  calls : List AgentToolCall
  started : Bool
  observed : Bool
  completed : Bool
  deriving DecidableEq, Repr

/-- `split_once` at the first slash. -/
def splitModel (model : String) : Option (String × String) :=
  if '/' ∈ model.toList then
    some (String.ofList (model.toList.takeWhile (· ≠ '/')),
      String.ofList ((model.toList.dropWhile (· ≠ '/')).drop 1))
  else none

namespace Reading

def initial (request : ModelRequest) : Reading :=
  let (provider, model) := (splitModel request.model).getD ("unknown", request.model)
  { response := { provider, model, api := "unknown", responseId := none, blocks := [],
                  usage := none, stopReason := none }
    calls := []
    started := false
    observed := false
    completed := false }

/-- A delta goes to the last block if that is a text. -/
def appendText (blocks : List AssistantResponseBlock) (delta : String) :
    List AssistantResponseBlock :=
  match blocks.getLast? with
  | some (.text text) => blocks.dropLast ++ [.text (text ++ delta)]
  | _ => blocks ++ [.text delta]

def push (reading : Reading) (block : AssistantResponseBlock) : Reading :=
  { reading with
    response := { reading.response with blocks := reading.response.blocks ++ [block] }
    observed := true }

/-- What an event changes. -/
def take (reading : Reading) : ModelStreamEvent → Reading
  | .start => { reading with started := true }
  | .responseMetadata provider model api responseId =>
      { reading with
        response := { reading.response with provider, model, api, responseId }
        observed := true }
  | .textDelta delta =>
      { reading with
        response := { reading.response with blocks := appendText reading.response.blocks delta }
        started := true
        observed := true }
  | .reasoning text signature => reading.push (.reasoning text signature)
  | .toolCall id name arguments thoughtSignature =>
      { reading.push (.toolCall id name arguments thoughtSignature) with
        calls := reading.calls ++
          [{ id, name, arguments, thoughtSignature, catalogGeneration := 0 }]
        started := true }
  | .providerState provider model data => reading.push (.opaqueState provider model data)
  | .responseCompleted usage stopReason =>
      { reading with
        response := { reading.response with usage, stopReason }
        observed := true
        completed := true }
  | .done => reading

end Reading

/-- What is announced of an event, the start once. -/
def ModelStreamEvent.signals (started : Bool) : ModelStreamEvent → List AgentSignal
  | .start | .toolCall .. => if started then [] else [.assistantStarted]
  | .textDelta delta => (if started then [] else [.assistantStarted]) ++ [.assistantTextDelta delta]
  | _ => []

/-! ## The calls -/

abbrev Calling := Tx (List CallEvent) CallFailure

namespace ProviderWorld

variable (world : ProviderWorld)

def note (event : CallEvent) : Calling Unit := Tx.modify (· ++ [event])

def answer {A : Type} (result : Except Failure A) : Calling A :=
  match result with
  | .ok value => pure value
  | .error failure => Tx.fail (.failure failure)

def turnCancelled : CallFailure := .failure (.of .turnCancelled)

def signalled (signal : AgentSignal) : Calling Unit := do
  let result ← Tx.reads fun log => world.signal log signal
  note (.signalled signal)
  answer result

def finishProviderCall (operation : Option OperationId) (outcome : ProviderCallOutcome) :
    Calling Unit :=
  match operation with
  | none => pure ()
  | some operation => do
      let result ← Tx.reads fun log => world.callFinished log operation outcome
      note (.finished operation outcome)
      answer result

/-- The request has crossed the boundary, whether or not its stream is waited for. -/
def dispatchProvider (request : ModelRequest) (operation : Option OperationId) :
    Calling (List Poll × Option OperationId) := do
  let dispatch ← Tx.reads fun log => world.stream log request.serialized
  note (.dispatched request.serialized)
  match dispatch with
  | .cancelled =>
      note .cancelled
      world.finishProviderCall operation (.uncertain "provider call was cancelled after dispatch")
      Tx.fail turnCancelled
  | .failed error =>
      note (.refused error)
      world.finishProviderCall operation (error.outcome world.debug)
      Tx.fail (.provider error)
  | .streaming polls => pure (polls, operation)

def startProviderStream (request : ModelRequest) : Calling (List Poll × Option OperationId) := do
  if ← Tx.reads world.cancelled then
    Tx.fail turnCancelled
  else
    let operation ← answer (← Tx.reads fun log => world.callStarted log request)
    note (.started request.serialized operation)
    world.dispatchProvider request operation

/-- The stream has ended. -/
def completeResponse (operation : Option OperationId) (reading : Reading) : Calling Reading :=
  if reading.completed then do
    world.finishProviderCall operation .succeeded
    pure reading
  else do
    world.finishProviderCall operation
      (.uncertain "provider stream ended before response completion")
    Tx.fail (.failure (.msg "provider stream ended before response completion"))

/-- `fallback` is there while the cursor is active: it calls the provider again and reads on. -/
def readStream (operation : Option OperationId) (fallback : Option (Reading → Calling Reading)) :
    List Poll → Reading → Calling Reading
  | [], reading => do
      note .ended
      world.completeResponse operation reading
  | .cancelled :: _, _ => do
      note .cancelled
      world.finishProviderCall operation (.uncertain "provider call was cancelled after dispatch")
      Tx.fail turnCancelled
  | .item (.error error) :: _, reading => do
      note (.polled (.error error))
      world.finishProviderCall operation (error.outcome world.debug)
      match fallback with
      | some replay =>
          if error.isCursorRejected && !reading.observed then replay reading
          else Tx.fail (.provider error)
      | none => Tx.fail (.provider error)
  | .item (.ok .done) :: _, reading => do
      note (.polled (.ok .done))
      world.completeResponse operation reading
  | .item (.ok event) :: polls, reading => do
      note (.polled (.ok event))
      Tx.each (event.signals reading.started) world.signalled
      readStream operation fallback polls (reading.take event)

def fullReplay (request : ModelRequest) : Except String ModelRequest :=
  match request.continuation with
  | some cursor => (request.cursorless cursor.fallbackMessages).applyContextBudget
  | none => request.applyContextBudget

/-- The call of the full history, whose cursor is not active. -/
def replayCall (request : ModelRequest) (reading : Reading) : Calling Reading := do
  let (polls, operation) ← match fullReplay request with
    | .ok replay => world.startProviderStream replay
    | .error text => Tx.fail (.failure (.msg text))
  world.readStream operation none polls reading

/-- The cursor is active in the first call if there is one. -/
def firstCall (request : ModelRequest) : Calling Reading := do
  match ← Tx.attempt (world.startProviderStream request) with
  | .ok (polls, operation) =>
      world.readStream operation
        (if request.continuation.isSome then some (world.replayCall request) else none) polls
        (Reading.initial request)
  | .error failure =>
      if request.continuation.isSome && failure.isCursorRejected then
        world.replayCall request (Reading.initial request)
      else Tx.fail failure

def streamResponse (request : ModelRequest) : Calling (AssistantResponse × List AgentToolCall) := do
  let reading ← world.firstCall request
  pure (reading.response, reading.calls)

end ProviderWorld

end Mews
