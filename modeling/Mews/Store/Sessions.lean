import Mathlib.Data.List.Sort
import Mews.Store.Journal

/-!
# Session commands

Effects, Turn acceptance, ACP bindings and the timeline appends.  Each command
checks the authoritative tables, records Session events and projects them, all
in one transaction.
-/

namespace Mews

open Protocol

def maxAcpSessionIdBytes : Nat := 4 * 1024

def maxAcpContextBytes : Nat := 64 * 1024

inductive EffectOutcome where
  | succeeded (result : Option Value)
  | failed (error : String)
  | uncertain (reason : String)
  deriving DecidableEq, Repr

/-- One non-contextual Harness observation of an atomic batch. -/
structure HarnessObservationInput where
  harnessSessionId : Option String
  kind : String
  data : Value
  idempotencyKey : Option String
  deriving DecidableEq, Repr

/-- The Host, Harness and context one ACP Session is bound under. -/
structure AcpBindingInput where
  hostId : HostId
  harness : String
  definitionHash : String
  acpSessionId : String
  transition : AcpBindingTransition
  context : AcpContextSnapshot
  contextText : String
  channel : AcpInstructionChannel
  contextDispatched : Bool
  deriving DecidableEq, Repr

/-- Turn admission limits.  They are the same at every ingress boundary. -/
def validateTurnInput (world : World) (key : String) (content : MessageContent)
    (metadata : Value) (source : MessageSource) : Except StoreError Unit := do
  demand (¬key = "" ∧ key.utf8ByteSize ≤ 200) (.invalidData "invalid turn idempotency key")
  demand ((source.kind = .client ∨ source.kind = .channel) ∧ ¬source.id = "" ∧
    source.id.utf8ByteSize ≤ 256)
    (.invalidData "turn source must be a Client or Channel with a valid ID")
  demand (world.metadataBytes metadata ≤ 64 * 1024)
    (.invalidData "message metadata exceeds 64 KiB")
  match content with
  | .text text => demand (¬isBlank text) (.invalidData "message text cannot be empty")
  | _ => .ok ()
  validateSessionItem world (.userMessage content metadata source)

/-- The limits on a user message inside an admitted Turn. -/
def validateAppendedMessage (world : World) (content : MessageContent) (metadata : Value)
    (source : MessageSource) : Except StoreError Unit := do
  demand (¬source.id = "" ∧ source.id.utf8ByteSize ≤ 256)
    (.invalidData "message source must have a valid ID")
  demand (world.metadataBytes metadata ≤ 64 * 1024)
    (.invalidData "message metadata exceeds 64 KiB")
  match content with
  | .text text => demand (¬isBlank text) (.invalidData "message text cannot be empty")
  | _ => .ok ()
  validateSessionItem world (.userMessage content metadata source)

/-- The message a contextual entry stands for. -/
def messageFromEntry (entry : SessionEntry) : Except StoreError Message :=
  let message (role : MessageRole) (content : MessageContent) (metadata : Value)
      (source : MessageSource) : Message :=
    { id := entry.id, sessionId := entry.sessionId, sequence := entry.sequence, role, content
      metadata, source, createdAt := entry.createdAt }
  match entry.payload with
  | .userMessage content metadata source => .ok (message .user content metadata source)
  | .assistantResponse _ response =>
      .ok (message .assistant (.text response.text) .null
        { kind := .harness, id := "default", channelOrigin := none })
  | .toolResult _ result =>
      .ok (message .tool
        (.toolResult result.callId result.tool result.result result.isError result.uncertain)
        .null { kind := .host, id := "default", channelOrigin := none })
  | _ => .error (.invalidData "entry is not a contextual message")

/-- The latest compaction stands in front of what it kept; the entries between
the beginning and the first kept one are left out. -/
def applyLatestCompaction (entries : List SessionEntry) : List SessionEntry :=
  let latest := entries.zipIdx.reverse.findSome? fun (entry, index) =>
    match entry.payload with
    | .contextCompaction _ firstKeptEntryId _ => some (entry, index, firstKeptEntryId)
    | _ => none
  match latest with
  | none => entries
  | some (compaction, compactionIndex, firstKeptId) =>
      match entries.findIdx? (fun entry => entry.id = firstKeptId) with
      | none => entries
      | some firstKeptIndex =>
          compaction :: ((entries.take compactionIndex).drop firstKeptIndex ++
            entries.drop (compactionIndex + 1))

namespace Projection

variable (tables : Projection)

/-- An entry and its ancestors in the timeline of its Session, at most `fuel`
of them. -/
def chainFrom : Nat → SessionEntry → List SessionEntry
  | 0, _ => []
  | fuel + 1, entry =>
      entry :: match entry.parentId.bind fun parent =>
          (tables.timeline entry.sessionId).find? fun row => row.entry.id = parent with
        | none => []
        | some row => chainFrom fuel row.entry

/-- The active branch in sequence order.  A chain visits every row of the
timeline at most once, so the number of rows is fuel enough. -/
def activeBranch (sessionId : SessionId) : List SessionEntry :=
  let leaf := (tables.findSession sessionId).bind fun session => session.leafEntryId
  match leaf.bind fun id => tables.sessionEntries.find? fun row => row.entry.id = id with
  | none => []
  | some row => (tables.chainFrom tables.sessionEntries.length row.entry).insertionSort
      fun left right => left.sequence ≤ right.sequence

def activeEntries (sessionId : SessionId) : List SessionEntry :=
  applyLatestCompaction (tables.activeBranch sessionId)

def selectSessionEntry (sessionId : SessionId) (entryId : MessageId) :
    Except StoreError SessionEntry :=
  match (tables.timeline sessionId).find? fun row => row.entry.id = entryId with
  | some row => .ok row.entry
  | none => .error (.notFound "Session entry" entryId.asStr)

def selectTurn (turnId : TurnId) : Except StoreError Turn :=
  match tables.turns.find? fun row => row.turn.id = turnId with
  | some row => .ok row.turn
  | none => .error (.notFound "turn" turnId.asStr)

def selectAcpBinding (sessionId : SessionId) : Option AcpSessionBinding :=
  tables.acpSessionBindings.find? fun binding => binding.sessionId = sessionId

def observationExists (sessionId : SessionId) (key : Option String) : Bool :=
  key.any fun key => (tables.timeline sessionId).any fun row => row.observationKey = some key

/-- The actor a Turn's events are attributed to. -/
def turnActor (sessionId : SessionId) (turnId : TurnId) (kind : EventActorKind) :
    Except StoreError EventActor := do
  let id ← match kind with
    | .host =>
        match tables.findSession sessionId with
        | some session => .ok session.hostId.asStr
        | none => .error Store.queryReturnedNoRows
    | .harness =>
        match tables.turns.find? fun row =>
          row.turn.id = turnId ∧ row.turn.sessionId = sessionId with
        | some row => .ok (row.turn.harness.getD "mews")
        | none => .error Store.queryReturnedNoRows
    | _ => .error (.invalidData "invalid Turn actor kind")
  return { kind, id := some id }

end Projection

namespace Store

variable (world : World)

def session (sessionId : SessionId) : Action Session := do
  Tx.expect (← select fun tables => tables.findSession sessionId)
    (Projection.sessionNotFound sessionId)

def turn (turnId : TurnId) : Action Turn := do
  Tx.lift (← select fun tables => tables.selectTurn turnId)

def validateActiveTurn (sessionId : SessionId) (turnId : TurnId) : Action Unit := do
  let tables ← select id
  Tx.require (tables.isActiveTurn sessionId turnId) (Projection.turnNotActive sessionId turnId)

def turnActor (sessionId : SessionId) (turnId : TurnId) (kind : EventActorKind) :
    Action EventActor := do
  Tx.lift (← select fun tables => tables.turnActor sessionId turnId kind)

def selectEntry (sessionId : SessionId) (entryId : MessageId) : Action SessionEntry := do
  Tx.lift (← select fun tables => tables.selectSessionEntry sessionId entryId)

/-! ## Effects -/

def scheduleEffectIn (sessionId : SessionId) (turnId : TurnId) (effect : EffectRequest) :
    Action OperationId := do
  let operationId ← newId world
  let actor ← turnActor sessionId turnId .harness
  let _ ← appendSessionEvent world sessionId actor (.effectScheduled operationId turnId effect)
  return operationId

/-- The effect row of the Turn in the given status. -/
def ownsEffect (sessionId : SessionId) (turnId : TurnId) (operationId : OperationId)
    (status : EffectStatus) (tables : Projection) : Bool :=
  tables.effects.any fun row => row.operationId = operationId ∧ row.sessionId = sessionId ∧
    row.turnId = turnId ∧ row.status = status

def markEffectStartedIn (sessionId : SessionId) (turnId : TurnId) (operationId : OperationId) :
    Action Unit := do
  let owned ← select (ownsEffect sessionId turnId operationId .scheduled)
  Tx.require (owned = true) (.invalidData
    s!"scheduled effect {operationId.asStr} does not belong to active Turn {turnId.asStr} in Session {sessionId.asStr}")
  let actor ← turnActor sessionId turnId .harness
  let _ ← appendSessionEvent world sessionId actor (.effectStarted operationId turnId)

def EffectOutcome.event (operationId : OperationId) (turnId : TurnId) :
    EffectOutcome → JournalEvent
  | .succeeded result => .effectSucceeded operationId turnId result
  | .failed error => .effectFailed operationId turnId error
  | .uncertain reason => .effectUncertain operationId turnId reason

def finishEffectIn (sessionId : SessionId) (turnId : TurnId) (operationId : OperationId)
    (outcome : EffectOutcome) : Action Unit := do
  let owned ← select (ownsEffect sessionId turnId operationId .started)
  Tx.require (owned = true) (.invalidData
    s!"started effect {operationId.asStr} does not belong to active Turn {turnId.asStr} in Session {sessionId.asStr}")
  let actor ← turnActor sessionId turnId .host
  let _ ← appendSessionEvent world sessionId actor (EffectOutcome.event operationId turnId outcome)

def scheduleEffect (sessionId : SessionId) (turnId : TurnId) (effect : EffectRequest) :
    Action OperationId :=
  transaction do
    validateActiveTurn sessionId turnId
    scheduleEffectIn world sessionId turnId effect

def markEffectStarted (sessionId : SessionId) (turnId : TurnId) (operationId : OperationId) :
    Action Unit :=
  transaction do
    validateActiveTurn sessionId turnId
    markEffectStartedIn world sessionId turnId operationId

def startEffect (sessionId : SessionId) (turnId : TurnId) (effect : EffectRequest) :
    Action OperationId :=
  transaction do
    validateActiveTurn sessionId turnId
    let operationId ← scheduleEffectIn world sessionId turnId effect
    markEffectStartedIn world sessionId turnId operationId
    return operationId

def finishEffect (sessionId : SessionId) (turnId : TurnId) (operationId : OperationId)
    (outcome : EffectOutcome) : Action Unit :=
  transaction do
    validateActiveTurn sessionId turnId
    finishEffectIn world sessionId turnId operationId outcome

def startToolEffect (sessionId : SessionId) (turnId : TurnId) (call : ToolCall) :
    Action OperationId :=
  startEffect world sessionId turnId (.toolCall call)

/-! ## Turn acceptance -/

/-- The Turn and the message a receipt stands for. -/
def loadTurnResult (sessionId : SessionId) (result : CommandResult) : Action (Turn × Message) := do
  match result with
  | .turn turnId entryId => do
      let turn ← turn turnId
      let entry ← selectEntry sessionId entryId
      let message ← Tx.lift (messageFromEntry entry)
      return (turn, message)
  | _ => invalidData "turn receipt is missing Turn ID"

/-- Looks a request up before its content is resolved. -/
def replayTurnIdempotent (sessionId : SessionId) (key : String) (requestContent : MessageContent)
    (metadata : Value) (source : MessageSource) : Action (Option (Turn × Message)) := do
  Tx.lift (validateTurnInput world key requestContent metadata source)
  match ← Tx.reads fun store => store.selectCommandReceipt (.turn sessionId key) with
  | none => return none
  | some receipt =>
      let hash := world.requestHash (.turn sessionId requestContent metadata source)
      Tx.require (receipt.requestHash = hash) (.commandConflict (.turn sessionId key))
      let result ← loadTurnResult sessionId receipt.result
      return some result

/-- The current revision of the Session's Agent. -/
def sessionAgentRevision (sessionId : SessionId) (tables : Projection) : Option Nat :=
  (tables.findSession sessionId).bind fun session =>
    (tables.agents.find? fun agent => agent.id = session.agentId).map fun agent =>
      agent.currentRevision

/-- The append of an accepted Turn: one entry, and a receipt that names the Turn
and its message. -/
def turnAppend (sessionId : SessionId) (key : String)
    (requestContent resolvedContent : MessageContent) (metadata : Value) (source : MessageSource)
    (agentRevision : Nat) (turnId : TurnId) (entryId : MessageId) (eventId : EventId) :
    JournalAppend :=
  { commandId := .turn sessionId key
    requestHash := world.requestHash (.turn sessionId requestContent metadata source)
    result := .turn turnId entryId
    subjects := [{
      subject := .session sessionId
      entries := [{
        id := eventId
        actor := .fromSource source
        correlationId := some key
        payload := .turnAccepted turnId agentRevision entryId resolvedContent metadata source }] }] }

/-- The transaction of an acceptance. -/
def acceptTurnIn (sessionId : SessionId) (key : String)
    (requestContent resolvedContent : MessageContent) (metadata : Value)
    (source : MessageSource) : Action AppendOutcome := do
  let agentRevision ← Tx.expect (← select (sessionAgentRevision sessionId))
    (Projection.sessionNotFound sessionId)
  let turnId ← newId world
  let entryId ← newId world
  let eventId ← newId world
  appendJournalEntriesIn world
    (turnAppend world sessionId key requestContent resolvedContent metadata source agentRevision
      turnId entryId eventId)
    fun events => Tx.each events (applySessionJournalEntry world)

/-- Accepts the user's input and creates its Turn as one idempotent command. -/
def acceptTurnIdempotent (sessionId : SessionId) (key : String)
    (requestContent resolvedContent : MessageContent) (metadata : Value)
    (source : MessageSource) : Action (Turn × Message × Bool) := do
  Tx.lift (validateTurnInput world key requestContent metadata source)
  Tx.lift (validateTurnInput world key resolvedContent metadata source)
  let outcome ← transaction
    (acceptTurnIn world sessionId key requestContent resolvedContent metadata source)
  let (turn, message) ← loadTurnResult sessionId outcome.receipt.result
  return (turn, message, !outcome.wasReplayed)

/-! ## ACP bindings -/

def decideAcpBinding (sessionId : SessionId) (input : AcpBindingInput) :
    Action AcpSessionBinding := do
  Tx.require (¬input.harness = "" ∧ ¬input.definitionHash = "" ∧ ¬input.acpSessionId = "" ∧
    input.acpSessionId.utf8ByteSize ≤ maxAcpSessionIdBytes ∧
    input.contextText.utf8ByteSize ≤ maxAcpContextBytes)
    (.invalidData "invalid ACP Session binding")
  let existing ← select fun tables => tables.selectAcpBinding sessionId
  let now ← utcNow world
  let fresh : AcpSessionBinding :=
    { sessionId, hostId := input.hostId, harness := input.harness
      harnessDefinitionHash := input.definitionHash, acpSessionId := input.acpSessionId
      contextVersion := input.context.version
      contextHash := world.renderedHash input.contextText
      contextChannel := input.channel, contextText := input.contextText
      contextDispatched := input.contextDispatched, createdAt := now
      replacedAt := none, lastReplacementReason := none }
  match existing, input.transition with
  | none, .new => return fresh
  | some existing, .replace reason => do
      Tx.require (existing.hostId = input.hostId) (.invalidData
        "ACP Session binding conflicts with its existing Host or Harness")
      return { fresh with
        createdAt := existing.createdAt
        replacedAt := some now
        lastReplacementReason := some reason }
  | some existing, .new => do
      Tx.require (existing.hostId = input.hostId ∧ existing.harness = input.harness ∧
        existing.harnessDefinitionHash = input.definitionHash ∧
        existing.acpSessionId = input.acpSessionId) (.invalidData
        "ACP Session binding conflicts with its existing Host or Harness")
      return existing
  | _, _ => invalidData "ACP Session binding conflicts with its existing Host or Harness"

/-- The journal event of one ACP observation. -/
def observationEvent (turnId : TurnId) (entryId : MessageId) (acpSessionId : Option String) :
    AcpObservation → JournalEvent
  | .completedReasoning text messageId visibility =>
      .reasoningRecorded turnId entryId text visibility (.harness "acp" messageId)
  | observation =>
      let data := observation.toValue
      .harnessObservationRecorded turnId entryId acpSessionId
        (((data.get "type").bind Value.asStr).getD "acp") data

/-- Observations share the contextual leaf as an anchor but never advance it. -/
def recordAcpObservationTransaction (sessionId : SessionId) (turnId : TurnId)
    (acpSessionId eventKey : Option String) (observation : AcpObservation) : Action Unit := do
  if ← select fun tables => tables.observationExists sessionId eventKey then
    return ()
  else
    let entryId ← newId world
    let _ ← appendSessionEventCorrelated world sessionId { kind := .harness, id := some "acp" }
      (observationEvent turnId entryId acpSessionId observation) eventKey

def bindAcpSession (sessionId : SessionId) (input : AcpBindingInput) :
    Action AcpSessionBinding := do
  transaction do
    let binding ← decideAcpBinding world sessionId input
    let _ ← appendSessionEvent world sessionId { kind := .harness, id := some input.harness }
      (.acpBindingChanged binding)
  Tx.expect (← select fun tables => tables.selectAcpBinding sessionId)
    (.invalidData "ACP Session binding was not persisted")

def bindAcpSessionWithObservations (sessionId : SessionId) (input : AcpBindingInput)
    (turnId : TurnId) : Action Unit :=
  transaction do
    let bindingKey := "binding:" ++ turnId.asStr
    if ← select fun tables => tables.observationExists sessionId (some bindingKey) then
      return ()
    else
      let binding ← decideAcpBinding world sessionId input
      let _ ← appendSessionEvent world sessionId { kind := .harness, id := some input.harness }
        (.acpBindingChanged binding)
      recordAcpObservationTransaction world sessionId turnId (some input.acpSessionId)
        (some bindingKey) (.bindingChanged input.transition)
      if input.contextDispatched then
        recordAcpObservationTransaction world sessionId turnId (some input.acpSessionId)
          (some ("context_dispatched:" ++ input.acpSessionId))
          (.contextDispatched input.context.version (world.renderedHash input.contextText)
            input.channel input.contextText)
      else return ()

/-- The dispatch flag and its audit record describe one irreversible boundary. -/
def markAcpContextDispatchedWithObservation (sessionId : SessionId) (turnId : TurnId)
    (acpSessionId : String) : Action Unit :=
  transaction do
    let observationKey := "context_dispatched:" ++ acpSessionId
    if ← select fun tables => tables.observationExists sessionId (some observationKey) then
      return ()
    else
      let missing := StoreError.notFound "ACP Session binding" sessionId.asStr
      let binding ← Tx.expect (← select fun tables => tables.selectAcpBinding sessionId) missing
      Tx.require (binding.acpSessionId = acpSessionId) missing
      let _ ← appendSessionEvent world sessionId { kind := .harness, id := some binding.harness }
        (.acpContextDispatched binding.hostId binding.harness binding.contextVersion
          binding.contextHash binding.contextChannel)
      recordAcpObservationTransaction world sessionId turnId (some acpSessionId)
        (some observationKey)
        (.contextDispatched binding.contextVersion binding.contextHash binding.contextChannel
          binding.contextText)

/-! ## Sessions -/

/-- `Path::is_absolute` and the absence of `.` and `..` components; a `.`
inside a path is dropped by `components`, only a leading one is reported. -/
def validateWorkingDirectory (path : String) : Except StoreError Unit := do
  demand (path.toList.head? = some '/') (.invalidData "working directory must be absolute")
  demand (¬['.', '.'] ∈ path.toList.splitOn '/')
    (.invalidData "working directory must be Host-canonicalized")

def createSession (agentId : AgentId) (hostId : HostId) (workingDirectory : String) :
    Action Session := do
  Tx.lift (validateWorkingDirectory workingDirectory)
  transaction do
    let exists' ← select fun tables =>
      tables.agents.any fun agent => agent.id = agentId ∧ agent.archived = false
    Tx.require (exists' = true) (.notFound "agent" agentId.asStr)
    let id ← newId world
    let createdAt ← utcNow world
    let session : Session :=
      { id, agentId, hostId, workingDirectory, modelOverride := none, leafEntryId := none
        createdAt }
    let _ ← appendSessionEvent world id .system (.sessionCreated session)
    return session

def setSessionModel (sessionId : SessionId) (model : Option String) : Action Session := do
  Tx.require (∀ value ∈ model, ¬isBlank value ∧ value.utf8ByteSize ≤ 200)
    (.invalidData "invalid Session model override")
  let _ ← session sessionId
  transaction do
    let _ ← appendSessionEvent world sessionId .system (.sessionModelChanged model)
  session sessionId

/-! ## Timeline appends -/

/-- Checks the Turn, records one event attributed to `kind` and reads the entry
it wrote. -/
def appendTurnEntry (sessionId : SessionId) (turnId : TurnId) (kind : EventActorKind)
    (event : MessageId → JournalEvent) : Action SessionEntry := do
  let entryId ← newId world
  let actor ← turnActor sessionId turnId kind
  let _ ← appendSessionEvent world sessionId actor (event entryId)
  selectEntry sessionId entryId

def appendToolResult (sessionId : SessionId) (turnId : TurnId) (result : ToolResult) :
    Action SessionEntry :=
  transaction do
    validateActiveTurn sessionId turnId
    let open' ← select fun tables => (tables.effects.find? fun row =>
      row.sessionId = sessionId ∧ row.turnId = turnId ∧ row.callId = some result.callId).any
        fun row => row.status.isOpen
    Tx.require (open' = false) (.invalidData
      s!"tool result {result.callId} cannot be recorded before its execution completes")
    appendTurnEntry world sessionId turnId .host fun entryId =>
      .toolResultRecorded turnId entryId result

def completeToolExecution (sessionId : SessionId) (turnId : TurnId) (result : ToolResult) :
    Action Unit :=
  transaction do
    validateActiveTurn sessionId turnId
    let row ← Tx.expect (← select fun tables => tables.effects.find? fun row =>
      row.sessionId = sessionId ∧ row.turnId = turnId ∧ row.callId = some result.callId ∧
        row.status = .started)
      (.invalidData
        s!"started tool effect {result.callId} is missing from Turn {turnId.asStr}")
    let actor ← turnActor sessionId turnId .host
    let _ ← appendSessionEvent world sessionId actor
      (.toolExecutionCompleted row.operationId turnId result)

def appendToolRequested (sessionId : SessionId) (turnId : TurnId) (call : ToolCall) :
    Action SessionEntry :=
  transaction do
    validateActiveTurn sessionId turnId
    appendTurnEntry world sessionId turnId .harness fun entryId =>
      .toolCallRequested turnId entryId call

def appendReasoning (sessionId : SessionId) (turnId : TurnId) (text : String)
    (visibility : ReasoningVisibility) (provenance : ReasoningProvenance)
    (idempotencyKey : Option String) : Action Unit :=
  transaction do
    validateActiveTurn sessionId turnId
    if ← select fun tables => tables.observationExists sessionId idempotencyKey then
      return ()
    else
      let entryId ← newId world
      let actor ← turnActor sessionId turnId .harness
      let _ ← appendSessionEventCorrelated world sessionId actor
        (.reasoningRecorded turnId entryId text visibility provenance) idempotencyKey

def appendHarnessObservationIn (sessionId : SessionId) (turnId : TurnId) (actor : EventActor)
    (observation : HarnessObservationInput) : Action Unit := do
  if ← select fun tables => tables.observationExists sessionId observation.idempotencyKey then
    return ()
  else
    let entryId ← newId world
    let _ ← appendSessionEventCorrelated world sessionId actor
      (.harnessObservationRecorded turnId entryId observation.harnessSessionId observation.kind
        observation.data) observation.idempotencyKey

/-- Appends a complete observation group in one transaction. -/
def appendHarnessObservations (sessionId : SessionId) (turnId : TurnId)
    (observations : List HarnessObservationInput) : Action Unit := do
  Tx.require (observations.filterMap (·.idempotencyKey)).Nodup
    (.invalidData "duplicate Harness observation key")
  transaction do
    validateActiveTurn sessionId turnId
    let actor ← turnActor sessionId turnId .harness
    Tx.each observations (appendHarnessObservationIn world sessionId turnId actor)

def appendContextCompaction (sessionId : SessionId) (summary : String)
    (firstKeptEntryId : MessageId) (tokensBefore : Nat) : Action SessionEntry := do
  Tx.require (¬isBlank summary) (.invalidData "compaction summary must not be empty")
  let active ← select fun tables => tables.activeEntries sessionId
  Tx.require (∃ entry ∈ active, entry.id = firstKeptEntryId)
    (.invalidData "compaction boundary must be in the active branch")
  transaction do
    let entryId ← newId world
    let _ ← appendSessionEvent world sessionId .system
      (.contextCompacted entryId summary firstKeptEntryId tokensBefore)
    selectEntry sessionId entryId

def appendAcpObservation (sessionId : SessionId) (turnId : TurnId)
    (acpSessionId eventKey : Option String) (observation : AcpObservation) : Action Unit :=
  transaction (recordAcpObservationTransaction world sessionId turnId acpSessionId eventKey
    observation)

/-- The leaf a caller expects is the current one. -/
def requireLeaf (sessionId : SessionId) (expectedLeaf : Option MessageId) : Action Unit := do
  let session ← session sessionId
  Tx.require (session.leafEntryId = expectedLeaf) (.leafConflict expectedLeaf session.leafEntryId)

/-- Only a successful checked append advances the active leaf. -/
def appendMessageChecked (sessionId : SessionId) (expectedLeaf : Option MessageId)
    (role : MessageRole) (content : MessageContent) (metadata : Value) (source : MessageSource) :
    Action Message := do
  Tx.require (role = .user) (.invalidData
    "append_message only accepts user messages; use a typed transcript append")
  Tx.lift (validateAppendedMessage world content metadata source)
  transaction do
    requireLeaf sessionId expectedLeaf
    let entryId ← newId world
    let _ ← appendSessionEvent world sessionId (.fromSource source)
      (.userMessageAppended entryId content metadata source)
    let entry ← selectEntry sessionId entryId
    Tx.lift (messageFromEntry entry)

def appendMessage (sessionId : SessionId) (role : MessageRole) (content : MessageContent)
    (metadata : Value) (source : MessageSource) : Action Message := do
  let session ← session sessionId
  appendMessageChecked world sessionId session.leafEntryId role content metadata source

def setSessionLeafChecked (sessionId : SessionId) (expectedLeaf newLeaf : Option MessageId) :
    Action Session := do
  transaction do
    requireLeaf sessionId expectedLeaf
    let tables ← select id
    Tx.require (∀ leaf ∈ newLeaf, ∃ row ∈ tables.timeline sessionId,
      row.entry.id = leaf ∧ row.contextual = true)
      (.invalidData "Session leaf must be a contextual entry in its Session")
    let _ ← appendSessionEvent world sessionId .system (.sessionLeafChanged newLeaf)
  session sessionId

end Store

end Mews
