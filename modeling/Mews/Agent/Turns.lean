import Mews.Agent.Batches
import Mews.Agent.RequestValues
import Mews.Host.TurnMessages

/-!
# The steps of a Turn

`execute_turn_inner` calls the provider, executes the tool calls of its response and goes on
with their results, until a response asks for no tool.  What the runtime answers is a question
to the world, which may look at the step and at the provider calls so far.
-/

namespace Mews

open Protocol HostProtocol

inductive ContinuationCapability where
  | none
  | responseId (provider api : String)
  deriving DecidableEq, Repr

inductive StepDecision where
  | goOn
  | stop
  deriving DecidableEq, Repr

structure NextStepUpdate where
  model : Option String
  reasoning : Option (Option ReasoningEffort)
  system : Option String
  deriving DecidableEq, Repr

/-- The runtime of a Turn and its provider.  The context is not transformed. -/
structure TurnWorld where
  provider : ProviderWorld
  library : Libraries
  capability : String → ContinuationCapability
  cancelled : Nat → List CallEvent → Bool
  tools : Nat → List CallEvent → Except Failure ToolCatalogSnapshot
  request : List ToolDefinition → Except Failure ModelRequest
  steeringMessages : Nat → List CallEvent → Except Failure (List ModelMessage)
  followUpMessages : Nat → List CallEvent → Except Failure (List ModelMessage)
  injected : Nat → List CallEvent → ModelMessage → Except Failure Unit
  beforeModel : Nat → List CallEvent → ModelRequest → Except Failure ModelRequest
  responded : Nat → List CallEvent → AssistantResponse → List AgentToolCall → Except Failure Unit
  /-- `prepare_and_execute` and the record of its results. -/
  executed : Nat → List CallEvent → ToolCatalog → List AgentToolCall → Except Failure BatchOutcome
  afterStep : Nat → List CallEvent → ModelRequest → Except Failure StepDecision
  prepareNextStep : Nat → List CallEvent → ModelRequest → Except Failure NextStepUpdate

def maxToolCallsPerStep : Nat := 64

/-- What a step goes on with. -/
structure TurnState where
  catalog : ToolCatalogSnapshot
  request : ModelRequest
  acceptedCallIds : List String

inductive StepEnd where
  | answered (text : String)
  | next (state : TurnState)

/-- What a block adds to the history. -/
def responseContent : AssistantResponseBlock → Option MessageContent
  | .text text => some (.text text)
  | .toolCall callId tool arguments thoughtSignature =>
      some (.toolCall callId tool arguments thoughtSignature)
  | .opaqueState provider model data => some (.providerState provider model data)
  | .reasoning .. => none

def responseMessages (response : AssistantResponse) : List ModelMessage :=
  (response.blocks.filterMap responseContent).map fun content => { role := .assistant, content }

def resultMessage (item : AgentToolCall × ToolOutcome) : ModelMessage :=
  { role := .tool
    content := .toolResult item.1.id item.1.name item.2.value item.2.isError item.2.uncertain }

def applyUpdate (request : ModelRequest) (update : NextStepUpdate) : ModelRequest :=
  { request with
    model := update.model.getD request.model
    reasoning := update.reasoning.getD request.reasoning
    system := update.system.getD request.system }

/-- Why the effect of a call is uncertain. -/
def uncertainReason (completed : List (AgentToolCall × ToolOutcome)) : Option String :=
  (completed.find? fun item => item.2.uncertain).map fun item =>
    item.2.value.asStr.getD "tool outcome is uncertain"

namespace TurnWorld

open ProviderWorld (answer turnCancelled)

def bail {A : Type} (text : String) : Calling A := Tx.fail (.failure (.msg text))

def inject (injected : List CallEvent → ModelMessage → Except Failure Unit)
    (request : ModelRequest) : List ModelMessage → Calling ModelRequest
  | [] => pure request
  | message :: messages => do
      answer (← Tx.reads fun log => injected log message)
      inject injected { request with messages := request.messages ++ [message] } messages

variable (world : TurnWorld)

/-- A cursor of another provider is replaced by the history that it stands for. -/
def dropIncompatible (request : ModelRequest) : ModelRequest :=
  match request.continuation with
  | some cursor =>
      if world.capability request.model = .responseId cursor.provider cursor.api then request
      else request.cursorless cursor.fallbackMessages
  | none => request

def openTurn : Calling TurnState := do
  let catalog ← answer (← Tx.reads (world.tools 0))
  let request ← answer (world.request catalog.tools)
  pure { catalog, request := world.dropIncompatible request, acceptedCallIds := [] }

/-- The first step has the catalog of the Turn. -/
def stepCatalog (index : Nat) (state : TurnState) : Calling ToolCatalogSnapshot := do
  if index = 0 then pure state.catalog
  else answer (← Tx.reads (world.tools index))

/-- The step up to its `before_model` hook. -/
def beginStep (index : Nat) (state : TurnState) : Calling TurnState := do
  if ← Tx.reads (world.cancelled index) then
    Tx.fail turnCancelled
  else
    let catalog ← world.stepCatalog index state
    let request :=
      if index = 0 then state.request else { state.request with tools := catalog.tools }
    let steering ← answer (← Tx.reads (world.steeringMessages index))
    let request ← inject (world.injected index) request steering
    pure { state with catalog, request }

def catalogFailure : TurnStop → CallFailure
  | .catalog error => .failure (.msg error)
  | _ => .failure (.msg "")

/-- `ensure_catalog_tools` and `ToolCatalog::compile`. -/
def checkTools (catalog : ToolCatalogSnapshot) (visible : List ToolDefinition) :
    Except CallFailure Unit := do
  (NativeTurn.ensureCatalogTools world.library catalog.tools visible).mapError catalogFailure
  (NativeTurn.compileTools world.library visible []).mapError catalogFailure

def checkRequest (catalog : ToolCatalogSnapshot) (request : ModelRequest) :
    Except CallFailure ModelRequest :=
  match request.applyContextBudget with
  | .error text => .error (.failure (.msg text))
  | .ok request => (world.checkTools catalog request.tools).map fun _ => request

/-- The step once the results of its calls are recorded. -/
def endStep (index : Nat) (state : TurnState) (text : String) (outcome : BatchOutcome) :
    Calling StepEnd := do
  match outcome.terminalError with
  | some failure => Tx.fail (.failure failure)
  | none =>
      let afterStep ← Tx.reads fun log => world.afterStep index log state.request
      match uncertainReason outcome.completed with
      | some reason =>
          let failure := Failure.uncertain reason
          match afterStep with
          | .ok _ => Tx.fail (.failure failure)
          | .error other =>
              Tx.fail (.failure (failure.context
                ("after_step also failed after the uncertain effect: " ++ other.chain)))
      | none =>
          let decision ← answer afterStep
          if (outcome.completed.any fun item => item.2.terminate) || decision = .stop then
            pure (.answered text)
          else
            let update ← answer (← Tx.reads fun log =>
              world.prepareNextStep index log state.request)
            let request := applyUpdate state.request update
            if outcome.completed.isEmpty then
              let followUps ← answer (← Tx.reads (world.followUpMessages index))
              if followUps.isEmpty then pure (.answered text)
              else
                let request ← inject (world.injected index) request followUps
                pure (.next { state with request })
            else pure (.next { state with request })

/-- The step from the request that is sent. -/
def callModel (index : Nat) (state : TurnState) (request : ModelRequest) : Calling StepEnd := do
  let tools : ToolCatalog :=
    { generation := state.catalog.generation, definitions := request.tools }
  let (response, calls) ← world.provider.streamResponse request
  if maxToolCallsPerStep < calls.length then
    bail ("provider returned " ++ toString calls.length ++
      " tool calls; the per-step limit is " ++ toString maxToolCallsPerStep)
  else
    match validateToolCallIds world.library.debug state.acceptedCallIds calls [] with
    | .error text => bail text
    | .ok () =>
        let calls := calls.map tools.stamp
        if response.text = "" ∧ calls = [] then
          bail "provider returned an empty assistant response"
        else
          -- The cursor of the request that was sent is of no use for the next.
          let request := { request with
            continuation := none, messages := request.messages ++ responseMessages response }
          answer (← Tx.reads fun log => world.responded index log response calls)
          let outcome ← answer (← Tx.reads fun log => world.executed index log tools calls)
          world.endStep index
            { state with
              request := { request with
                messages := request.messages ++ outcome.completed.map resultMessage }
              acceptedCallIds := state.acceptedCallIds ++ calls.map (·.id) }
            response.text outcome

def runStep (index : Nat) (state : TurnState) : Calling StepEnd := do
  let state ← world.beginStep index state
  let request ← answer (← Tx.reads fun log => world.beforeModel index log state.request)
  let request ← Tx.lift (world.checkRequest state.catalog request)
  world.callModel index state request

def runSteps (maxSteps : Nat) : Nat → Nat → TurnState → Calling String
  | 0, _, _ =>
      Tx.fail (.failure ((Failure.msg ("agent exceeded " ++ toString maxSteps ++
        " model steps")).context "model/tool loop did not finish"))
  | steps + 1, index, state => do
      match ← world.runStep index state with
      | .answered text => pure text
      | .next state => runSteps maxSteps steps (index + 1) state

/-- `execute_turn_inner`. -/
def executeTurn (maxSteps : Nat) : Calling String := do
  let state ← world.openTurn
  world.runSteps maxSteps maxSteps 0 state

end TurnWorld

/-- The requests that are sent. -/
def dispatchedRequests (log : List CallEvent) : List ModelRequest :=
  log.filterMap fun event =>
    match event with
    | .dispatched request => some request
    | _ => none

end Mews
