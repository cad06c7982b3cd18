import Mews.Acp.Bridge
import Mews.Agent.ProviderCalls

/-!
# Batches of tool calls

The calls of a response are prepared one after the other and executed in the mode of the
Agent: one after the other, up to the first failure, or at most eight at a time in any
interleaving, with the results in the order of the calls.
-/

namespace Mews

open Protocol HostProtocol

/-- The events of a batch. -/
inductive AgentEvent where
  | toolExecutionStarted (call : AgentToolCall)
  | toolExecutionCompleted (call : AgentToolCall) (result : ToolOutcome)
  | toolResultRecorded (call : AgentToolCall) (result : ToolOutcome)
  deriving DecidableEq

inductive BatchEvent where
  /-- The `before_tool` hook was asked. -/
  | asked (call : AgentToolCall)
  | event (event : AgentEvent) (accepted : Bool)
  /-- The call was executed to an outcome. -/
  | executed (call : AgentToolCall)
  /-- The cancellation came first. -/
  | interrupted (call : AgentToolCall)
  deriving DecidableEq

/-- The runtime, the cancellation token and the schema validator. -/
structure BatchWorld where
  cancelled : List BatchEvent → Bool
  beforeTool : List BatchEvent → AgentToolCall → Except Failure ToolDecision
  /-- There is none where the cancellation comes first. -/
  execute : List BatchEvent → AgentToolCall → Option (Except Failure ToolOutcome)
  accept : List BatchEvent → AgentEvent → Except Failure Unit
  afterTool : List BatchEvent → AgentToolCall → ToolOutcome → Except Failure ToolOutcome
  /-- What a schema has against arguments. -/
  schemaError : Value → Value → Option String
  debug : String → String

/-- `mews_agent::ToolCatalog`. -/
structure ToolCatalog where
  generation : Nat
  definitions : List ToolDefinition

inductive Prepared where
  | immediate (call : AgentToolCall) (result : ToolOutcome)
  | execute (call : AgentToolCall)
  deriving DecidableEq

def Prepared.call : Prepared → AgentToolCall
  | .immediate call _ | .execute call => call

structure BatchOutcome where
  completed : List (AgentToolCall × ToolOutcome)
  terminalError : Option Failure
  deriving DecidableEq

def maxConcurrentTools : Nat := 8

def maxToolCallIdBytes : Nat := 256

/-- The calls of a response belong to the catalog that it was asked with. -/
def ToolCatalog.stamp (tools : ToolCatalog) (call : AgentToolCall) : AgentToolCall :=
  { call with catalogGeneration := tools.generation }

/-- `validate_tool_call_ids`; `ids` are those seen before. -/
def validateToolCallIds (debug : String → String) (accepted : List String) :
    List AgentToolCall → List String → Except String Unit
  | [], _ => .ok ()
  | call :: calls, ids =>
      if call.id = "" then .error "provider returned a tool call with an empty ID"
      else if maxToolCallIdBytes < call.id.utf8ByteSize then
        .error ("provider returned a tool-call ID longer than " ++ toString maxToolCallIdBytes ++
          " bytes")
      else if call.id ∈ accepted ∨ call.id ∈ ids then
        .error ("provider returned duplicate tool-call ID " ++ debug call.id)
      else validateToolCallIds debug accepted calls (call.id :: ids)

namespace BatchWorld

variable (world : BatchWorld) (tools : ToolCatalog)

/-- `ToolCatalog::validate`. -/
def validate (call : AgentToolCall) : Except String Unit :=
  match tools.definitions.find? (·.name = call.name) with
  | none => .error ("tool " ++ world.debug call.name ++ " is unavailable")
  | some definition =>
      match world.schemaError definition.schema call.arguments with
      | none => .ok ()
      | some error =>
          .error ("invalid arguments for tool " ++ world.debug call.name ++ ": " ++ error)

/-! ## Preparation -/

structure Preparation where
  prepared : List Prepared
  terminalError : Option Failure
  preparationCancelled : Bool
  log : List BatchEvent

namespace Preparation

def initial : Preparation :=
  { prepared := [], terminalError := none, preparationCancelled := false, log := [] }

def push (preparation : Preparation) (item : Prepared) : Preparation :=
  { preparation with prepared := preparation.prepared ++ [item] }

/-- The first error stays. -/
def stop (preparation : Preparation) (failure : Failure) (cancelled : Bool) : Preparation :=
  { preparation with
    terminalError := some (preparation.terminalError.getD failure)
    preparationCancelled := preparation.preparationCancelled || cancelled }

def stopText (preparation : Preparation) : String :=
  if preparation.preparationCancelled then "tool call did not start because the Turn was cancelled"
  else "tool call did not start because preparation stopped"

/-- Once preparation has stopped nothing is executed. -/
def settle (preparation : Preparation) : List Prepared :=
  if preparation.terminalError.isSome then
    preparation.prepared.map fun item =>
      match item with
      | .immediate call result => .immediate call result
      | .execute call => .immediate call (.error preparation.stopText)
  else preparation.prepared

end Preparation

/-- The decision of the hook about a call. -/
def decideCall (preparation : Preparation) (call : AgentToolCall) : Preparation :=
  let asked : Preparation := { preparation with log := preparation.log ++ [.asked call] }
  match world.beforeTool preparation.log call with
  | .ok (.block reason) => asked.push (.immediate call (.error reason))
  | .ok .allow => asked.push (.execute call)
  | .error failure =>
      match failure.effectUncertainty with
      | some reason =>
          (asked.stop failure false).push
            (.immediate call (.uncertainBecause ("before_tool outcome is uncertain: " ++ reason)))
      | none =>
          if failure.isTurnCancelled then
            (asked.stop failure true).push (.immediate call (.error "before_tool was cancelled"))
          else asked.push (.immediate call (.error ("before_tool failed: " ++ failure.chain)))

def prepareCall (preparation : Preparation) (call : AgentToolCall) : Preparation :=
  if preparation.preparationCancelled || world.cancelled preparation.log then
    (preparation.stop (.of .turnCancelled) true).push
      (.immediate call (.error "tool call did not start because the Turn was cancelled"))
  else if preparation.terminalError.isSome then
    preparation.push
      (.immediate call (.error "tool call did not start because preparation stopped"))
  else
    match world.validate tools call with
    | .error text => preparation.push (.immediate call (.error text))
    | .ok () => world.decideCall preparation call

def prepare (calls : List AgentToolCall) : Preparation :=
  calls.foldl (world.prepareCall tools) .initial

/-! ## Execution -/

abbrev Recording := Tx (List BatchEvent) Failure

def event (agentEvent : AgentEvent) : Recording Unit := do
  let answer ← Tx.reads fun log => world.accept log agentEvent
  Tx.modify (· ++ [.event agentEvent answer.isOk])
  Tx.lift answer

/-- The execution of a call, or the cancellation that came first. -/
def awaitCall (call : AgentToolCall) : Recording ToolOutcome := do
  match ← Tx.reads fun log => world.execute log call with
  | none =>
      Tx.modify (· ++ [.interrupted call])
      Tx.fail (.of .turnCancelled)
  | some answer =>
      Tx.modify (· ++ [.executed call])
      match answer with
      | .ok result => pure result
      | .error failure => pure (.ofFailure failure)

def executePrepared : Prepared → Recording (AgentToolCall × ToolOutcome)
  | .immediate call result => pure (call, result)
  | .execute call => do
      world.event (.toolExecutionStarted call)
      let result ← world.awaitCall call
      world.event (.toolExecutionCompleted call result)
      pure (call, result)

/-- One call after the other, up to the first that fails. -/
def executeSequential : List Prepared → List BatchEvent →
    List (AgentToolCall × ToolOutcome) × Option Failure × List BatchEvent
  | [], log => ([], none, log)
  | item :: items, log =>
      match world.executePrepared item log with
      | (.ok result, log) =>
          let (completed, failure, log) := executeSequential items log
          (result :: completed, failure, log)
      | (.error failure, log) => ([], some failure, log)

/-- How far a call has come that is executed among others. -/
inductive Slot where
  | ready (item : Prepared)
  | started (call : AgentToolCall)
  | executed (call : AgentToolCall) (result : ToolOutcome)
  | done (outcome : Except Failure (AgentToolCall × ToolOutcome))

namespace Slot

def outcome? : Slot → Option (Except Failure (AgentToolCall × ToolOutcome))
  | .done outcome => some outcome
  | _ => none

def isDone (slot : Slot) : Bool := slot.outcome?.isSome

end Slot

/-- The call goes on to the next of the points at which it waits. -/
def stepSlot (slot : Slot) (log : List BatchEvent) : Slot × List BatchEvent :=
  match slot with
  | .ready (.immediate call result) => (.done (.ok (call, result)), log)
  | .ready (.execute call) =>
      match world.event (.toolExecutionStarted call) log with
      | (.ok (), log) => (.started call, log)
      | (.error failure, log) => (.done (.error failure), log)
  | .started call =>
      match world.awaitCall call log with
      | (.ok result, log) => (.executed call result, log)
      | (.error failure, log) => (.done (.error failure), log)
  | .executed call result =>
      match world.event (.toolExecutionCompleted call result) log with
      | (.ok (), log) => (.done (.ok (call, result)), log)
      | (.error failure, log) => (.done (.error failure), log)
  | .done outcome => (.done outcome, log)

def stepAt : Nat → List Slot → List BatchEvent → List Slot × List BatchEvent
  | _, [], log => ([], log)
  | 0, slot :: slots, log =>
      let (slot, log) := world.stepSlot slot log
      (slot :: slots, log)
  | index + 1, slot :: slots, log =>
      let (slots, log) := stepAt index slots log
      (slot :: slots, log)

/-- `buffered`: a call is begun once fewer than eight are before it that have not been handed
on in order. -/
def poll (state : List Slot × List BatchEvent) (index : Nat) : List Slot × List BatchEvent :=
  if index < (state.1.takeWhile (·.isDone)).length + maxConcurrentTools then
    world.stepAt index state.1 state.2
  else state

/-- `schedule` says which call goes on each time. -/
def executeParallel (schedule : List Nat) (items : List Prepared) (log : List BatchEvent) :
    List Slot × List BatchEvent :=
  schedule.foldl world.poll (items.map .ready, log)

/-- The results of the calls that succeeded, and the first error. -/
def collectOutcomes : List (Except Failure (AgentToolCall × ToolOutcome)) → Option Failure →
    BatchOutcome
  | [], terminalError => { completed := [], terminalError }
  | .ok result :: outcomes, terminalError =>
      let rest := collectOutcomes outcomes terminalError
      { rest with completed := result :: rest.completed }
  | .error failure :: outcomes, terminalError =>
      collectOutcomes outcomes (some (terminalError.getD failure))

/-- There is no outcome while calls are waited for. -/
def prepareAndExecute (mode : ToolExecutionMode) (schedule : List Nat)
    (calls : List AgentToolCall) : Option BatchOutcome × List BatchEvent :=
  let preparation := world.prepare tools calls
  match mode with
  | .sequential =>
      match world.executeSequential preparation.settle preparation.log with
      | (completed, none, log) =>
          (some { completed, terminalError := preparation.terminalError }, log)
      | (completed, some failure, log) => (some { completed, terminalError := some failure }, log)
  | .parallel =>
      let (slots, log) := world.executeParallel schedule preparation.settle preparation.log
      (if slots.all (·.isDone) then
        some (collectOutcomes (slots.filterMap (·.outcome?)) preparation.terminalError)
      else none, log)

/-- `execute_turn_inner` with the results of a batch. -/
def recordResults : List (AgentToolCall × ToolOutcome) → Option Failure →
    Recording (Option Failure)
  | [], terminalError => pure terminalError
  | (call, result) :: completed, terminalError => do
      match ← Tx.reads fun log => world.afterTool log call result with
      | .error failure =>
          let replayResult := match failure.effectUncertainty with
            | some reason =>
                ToolOutcome.uncertainBecause ("after_tool outcome is uncertain: " ++ reason)
            | none => ToolOutcome.error ("after_tool failed: " ++ failure.chain)
          world.event (.toolResultRecorded call replayResult)
          recordResults completed (some (terminalError.getD failure))
      | .ok result =>
          world.event (.toolResultRecorded call result)
          recordResults completed terminalError

end BatchWorld

end Mews
