import Mews.Store.Delivery

/-!
# Turn termination

`finishTurnWithStopReason` and `recoverInterruptedWork` close what a Turn left
open: its effects, and the tool calls that got no result.
-/

namespace Mews

open Protocol

def interruptedProcessing : String :=
  "tool execution completed, but result processing was interrupted before hooks finished"

def terminatedDetail (uncertain : Bool) : String :=
  if uncertain then "outcome unknown because the Turn ended during tool execution"
  else "tool execution did not start before the Turn ended"

/-- The result synthesised for a call that has no definitive outcome. -/
def terminatedResult (callId tool : String) (uncertain : Bool) : ToolResult :=
  { callId, tool, result := .string (terminatedDetail uncertain), isError := true, uncertain }

/-- The result synthesised for a call whose raw outcome was not processed. -/
def interruptedResult (raw : ToolResult) : ToolResult :=
  { callId := raw.callId, tool := raw.tool, result := .string interruptedProcessing
    isError := true, uncertain := true }

/-- The call a timeline entry of the Turn records as started. -/
def Protocol.SessionEntryPayload.startedCall (turnId : TurnId) :
    SessionEntryPayload → Option ToolCall
  | .toolStarted entryTurn call => if entryTurn = turnId then some call else none
  | _ => none

/-- The result a timeline entry of the Turn records. -/
def Protocol.SessionEntryPayload.recordedResult (turnId : TurnId) :
    SessionEntryPayload → Option ToolResult
  | .toolResult entryTurn result => if entryTurn = turnId then some result else none
  | _ => none

namespace Projection

variable (tables : Projection)

/-- The open effects of a Turn by the time they were scheduled; ties keep the
table order. -/
def openEffects (turnId : TurnId) : List EffectRow :=
  (tables.effects.filter fun row => row.turnId = turnId ∧ row.status.isOpen).insertionSort
    fun left right => left.scheduledAt ≤ right.scheduledAt

/-- The calls of a Turn that its timeline records as started, in order. -/
def requestedCalls (sessionId : SessionId) (turnId : TurnId) : List ToolCall :=
  (tables.timeline sessionId).filterMap fun row => row.entry.payload.startedCall turnId

/-- The results of a Turn in its timeline, in order. -/
def recordedResults (sessionId : SessionId) (turnId : TurnId) : List ToolResult :=
  (tables.timeline sessionId).filterMap fun row => row.entry.payload.recordedResult turnId

/-- The raw results of a Turn's effects. -/
def rawCompletions (sessionId : SessionId) (turnId : TurnId) : List ToolResult :=
  (tables.effects.filter fun row => row.sessionId = sessionId ∧ row.turnId = turnId).filterMap
    fun row => row.rawResult

/-- A later completion of the same call replaces an earlier one. -/
def rawCompletion (sessionId : SessionId) (turnId : TurnId) (callId : String) :
    Option ToolResult :=
  (tables.rawCompletions sessionId turnId).reverse.find? fun raw => raw.callId = callId

end Projection

namespace Store

variable (world : World)

def recordToolResult (sessionId : SessionId) (turnId : TurnId) (result : ToolResult) :
    Action Unit := do
  let entryId ← newId world
  let _ ← appendSessionEvent world sessionId .system (.toolResultRecorded turnId entryId result)

def recordInterruptedToolProcessing (sessionId : SessionId) (turnId : TurnId)
    (raw : ToolResult) : Action Unit :=
  recordToolResult world sessionId turnId (interruptedResult raw)

def recordTerminatedToolResult (sessionId : SessionId) (turnId : TurnId) (callId tool : String)
    (uncertain : Bool) : Action Unit :=
  recordToolResult world sessionId turnId (terminatedResult callId tool uncertain)

/-- A started effect may have happened; a scheduled one did not start. -/
def closingEvent (turnId : TurnId) (row : EffectRow) : JournalEvent :=
  if row.status = .started then
    .effectUncertain row.operationId turnId
      "Turn terminated before the effect reported an outcome"
  else
    .effectFailed row.operationId turnId "Turn terminated before the effect started"

def closeOpenEffect (sessionId : SessionId) (turnId : TurnId) (row : EffectRow) :
    Action Unit := do
  let _ ← appendSessionEvent world sessionId .system (closingEvent turnId row)
  match row.callId, row.tool with
  | some callId, some tool =>
      recordTerminatedToolResult world sessionId turnId callId tool (row.status = .started)
  | _, _ => return ()

def closeOpenEffects (sessionId : SessionId) (turnId : TurnId) : Action Unit := do
  let effects ← select fun tables => tables.openEffects turnId
  Tx.each effects (closeOpenEffect world sessionId turnId)

def closeOrphanToolCall (sessionId : SessionId) (turnId : TurnId) (tables : Projection)
    (call : ToolCall) : Action Unit :=
  if (tables.recordedResults sessionId turnId).any fun result => result.callId = call.callId then
    return ()
  else
    match tables.rawCompletion sessionId turnId call.callId with
    | some raw => recordInterruptedToolProcessing world sessionId turnId raw
    | none =>
        recordTerminatedToolResult world sessionId turnId call.callId call.tool false

/-- Results are looked up once, before any of the missing ones is written. -/
def closeOrphanToolCalls (sessionId : SessionId) (turnId : TurnId) : Action Unit := do
  let tables ← select id
  Tx.each (tables.requestedCalls sessionId turnId)
    (closeOrphanToolCall world sessionId turnId tables)

def terminalEvent (turnId : TurnId) (error stopReason : Option String) :
    TurnStatus → Option JournalEvent
  | .completed => some (.turnCompleted turnId stopReason)
  | .failed => some (.turnFailed turnId (error.getD "Turn failed"))
  | .cancelled => some (.turnCancelled turnId)
  | .running => none

/-- The `Debug` form of a status. -/
def statusName : TurnStatus → String
  | .running => "Running"
  | .completed => "Completed"
  | .failed => "Failed"
  | .cancelled => "Cancelled"

def finishTurnWithStopReason (turnId : TurnId) (status : TurnStatus)
    (error stopReason : Option String) : Action Unit := do
  let event ← Tx.expect (terminalEvent turnId error stopReason status)
    (.invalidData "a finished Turn cannot remain running")
  transaction do
    let tables ← select id
    match tables.turns.find? fun row => row.turn.id = turnId ∧ row.turn.completedAt = none with
    | none =>
        let existing ← turn turnId
        Tx.require (existing.status = status) (.invalidData
          s!"Turn already finished with status {statusName existing.status}")
    | some row =>
        let sessionId := row.turn.sessionId
        let hasOpenEffects := tables.openEffects turnId ≠ []
        Tx.require (¬(status = .completed ∧ hasOpenEffects))
          (.invalidData "a Turn cannot complete while it has open effects")
        if hasOpenEffects then closeOpenEffects world sessionId turnId else pure ()
        closeOrphanToolCalls world sessionId turnId
        let _ ← appendSessionEvent world sessionId .system event

def finishTurn (turnId : TurnId) (status : TurnStatus) (error : Option String) : Action Unit :=
  finishTurnWithStopReason world turnId status error none

/-- The Harness of a Turn is recorded once; repeating it changes nothing. -/
def recordTurnHarness (turnId : TurnId) (harness definitionHash : String)
    (version : Option String) : Action Unit := do
  Tx.require (¬harness = "" ∧ ¬definitionHash = "")
    (.invalidData "Turn Harness name and definition hash must not be empty")
  transaction do
    let row ← Tx.expect (← select fun tables => tables.turns.find? fun row =>
      row.turn.id = turnId ∧ row.turn.completedAt = none) queryReturnedNoRows
    match row.turn.harness with
    | some existing =>
        Tx.require (existing = harness ∧ row.turn.harnessDefinitionHash = some definitionHash ∧
          row.turn.harnessVersion = version)
          (.invalidData "Turn Harness provenance is already different")
    | none =>
        let _ ← appendSessionEvent world row.turn.sessionId
          { kind := .harness, id := some harness }
          (.turnStarted turnId { name := harness, definitionHash, version })

/-- Records one model response and all tool calls accepted from it. -/
def appendAssistantResponseWithToolCalls (sessionId : SessionId) (turnId : TurnId)
    (response : AssistantResponse) (calls : List ToolCall) : Action SessionEntry := do
  let entry ← transaction do
    validateActiveTurn sessionId turnId
    let actor ← turnActor sessionId turnId .harness
    let entryId ← newId world
    let _ ← appendSessionEvent world sessionId actor
      (.assistantResponseRecorded turnId entryId response)
    let entry ← selectEntry sessionId entryId
    Tx.each calls fun call => do
      let callEntryId ← newId world
      let _ ← appendSessionEvent world sessionId actor (.toolCallRequested turnId callEntryId call)
    return entry
  pruneClientEvents world
  return entry

def appendAssistantResponse (sessionId : SessionId) (turnId : TurnId)
    (response : AssistantResponse) : Action SessionEntry :=
  appendAssistantResponseWithToolCalls world sessionId turnId response []

def interruptTurn (row : TurnRow) : Action Unit := do
  let turnId := row.turn.id
  let sessionId := row.turn.sessionId
  closeOpenEffects world sessionId turnId
  closeOrphanToolCalls world sessionId turnId
  let _ ← appendSessionEvent world sessionId .system
    (.turnInterrupted turnId "Hub stopped before the Turn completed")

/-- Recovers the work of a Hub that stopped: streaming fragments are dropped
and every active Turn is interrupted. -/
def recoverInterruptedWork : Action Unit :=
  transaction do
    Tx.modify fun store => { store with
      clientEvents := store.clientEvents.filter fun row => !row.transient }
    let interrupted ← select fun tables =>
      tables.turns.filter fun row => row.turn.completedAt = none
    Tx.each interrupted (interruptTurn world)

end Store

end Mews
