import Mews.Store.Schema

/-!
# Projecting Session journal entries

`projectSession` is the Session projection of the Store: it takes the projected
tables and one committed journal entry to the tables with that entry applied,
together with the durable client event the entry is delivered as.  It reads
nothing but its two arguments, which is what lets the journal be replayed.
-/

namespace Mews

open Protocol Table

def maxSessionItemBytes : Nat := 700 * 1024

/-- The durable client event of a projected entry. -/
structure Delivery where
  entryId : Option MessageId
  kind : ClientEventKind
  deriving DecidableEq, Repr

/-- Fails with `error` unless the condition holds. -/
def demand (condition : Prop) [Decidable condition] (error : StoreError) :
    Except StoreError Unit :=
  if condition then .ok () else .error error

/-- An `UPDATE` that must change exactly one row. -/
def updateOne {R : Type} (matched : R → Bool) (change : R → R) (rows : List R)
    (missing : StoreError) : Except StoreError (List R) :=
  if rows.countP matched = 1 then .ok (updateWhere matched change rows) else .error missing

/-- The identifier of the timeline entry written for a Turn transition. -/
def messageIdForEvent (eventId : EventId) : MessageId :=
  { uuid := eventId.uuid }

def messageSourceForEvent (event : JournalEntry) : MessageSource :=
  { kind :=
      match event.actor.kind with
      | .client => .client
      | .channel => .channel
      | .harness => .harness
      | .host | .system => .host
    id := event.actor.id.getD "system"
    channelOrigin := none }

def journalSessionId (event : JournalEntry) : Except StoreError SessionId :=
  match event.subject with
  | .session id => .ok id
  | _ => .error (.invalidData "journal entry does not belong to a Session")

def validateSessionItem (world : World) (payload : SessionEntryPayload) :
    Except StoreError Unit :=
  demand (world.itemBytes payload ≤ maxSessionItemBytes)
    (.invalidData "session item exceeds the page-safe size limit")

/-! ## Row updates -/

/-- The Turn with this identifier, as long as it has not completed. -/
def TurnRow.isActive (turnId : TurnId) (row : TurnRow) : Bool :=
  row.turn.id = turnId ∧ row.turn.completedAt = none

def TurnRow.withHarness (harness : HarnessProvenance) (row : TurnRow) : TurnRow :=
  { row with turn := { row.turn with
    harness := some harness.name
    harnessDefinitionHash := some harness.definitionHash
    harnessVersion := harness.version } }

def TurnRow.ended (status : TurnStatus) (error : Option String) (completedAt : DateTime)
    (row : TurnRow) : TurnRow :=
  { row with turn := { row.turn with status, error, completedAt := some completedAt } }

def EffectRow.isScheduled (operationId : OperationId) (row : EffectRow) : Bool :=
  row.operationId = operationId ∧ row.status = .scheduled

def EffectRow.started (startedAt : DateTime) (row : EffectRow) : EffectRow :=
  { row with status := .started, startedAt := some startedAt }

def EffectRow.isOpenOf (sessionId : SessionId) (turnId : TurnId) (operationId : OperationId)
    (row : EffectRow) : Bool :=
  row.operationId = operationId ∧ row.sessionId = sessionId ∧ row.turnId = turnId ∧
    row.status.isOpen

def EffectRow.ended (status : EffectStatus) (rawResult : Option ToolResult)
    (event : JournalEntry) (row : EffectRow) : EffectRow :=
  { row with
    status, rawResult, terminalJournalEntryId := some event.id
    completedAt := some event.recordedAt }

namespace Projection

variable (tables : Projection)

def findSession (sessionId : SessionId) : Option Session :=
  tables.sessions.find? fun session => session.id = sessionId

def hostExists (hostId : HostId) : Bool :=
  tables.hosts.any fun row => row.host.id = hostId

def agentExists (agentId : AgentId) : Bool :=
  tables.agents.any fun agent => agent.id = agentId

def sessionExists (sessionId : SessionId) : Bool :=
  tables.sessions.any fun session => session.id = sessionId

/-- The Turn of the Session that has not completed. -/
def isActiveTurn (sessionId : SessionId) (turnId : TurnId) : Bool :=
  tables.turns.any fun row =>
    row.turn.id = turnId ∧ row.turn.sessionId = sessionId ∧ row.turn.completedAt = none

def currentSessionLeaf (sessionId : SessionId) : Except StoreError (Option MessageId) :=
  match tables.findSession sessionId with
  | some session => .ok session.leafEntryId
  | none => .error Store.queryReturnedNoRows

/-- The timeline of one Session, in row order. -/
def timeline (sessionId : SessionId) : List EntryRow :=
  tables.sessionEntries.filter fun row => row.entry.sessionId = sessionId

def nextSequence (sessionId : SessionId) : Nat :=
  ((tables.timeline sessionId).map fun row => row.entry.sequence).foldr max 0 + 1

def setLeaf (sessionId : SessionId) (leaf : Option MessageId) : List Session :=
  updateWhere (fun session => session.id = sessionId)
    (fun session => { session with leafEntryId := leaf }) tables.sessions

/-- The constraints of `session_entries`: the primary key, the two unique
columns of a Session, and the reference from a parent identifier. -/
def entryAdmissible (row : EntryRow) : Prop :=
  (∀ other ∈ tables.sessionEntries, other.entry.id ≠ row.entry.id) ∧
  (∀ other ∈ tables.timeline row.entry.sessionId, other.entry.sequence ≠ row.entry.sequence) ∧
  (∀ key ∈ row.observationKey, ∀ other ∈ tables.timeline row.entry.sessionId,
    other.observationKey ≠ some key) ∧
  ∀ parent ∈ row.entry.parentId, ∃ other ∈ tables.timeline row.entry.sessionId,
    other.entry.id = parent

instance (row : EntryRow) : Decidable (tables.entryAdmissible row) := by
  unfold entryAdmissible
  infer_instance

/-- Inserts an entry below the current leaf and, when it is contextual, moves
the leaf to it. -/
def placeEntry (sessionId : SessionId) (entryId : MessageId) (payload : SessionEntryPayload)
    (contextual : Bool) (observationKey : Option String) (createdAt : DateTime) :
    Except StoreError (Projection × SessionEntry) := do
  let parentId ← tables.currentSessionLeaf sessionId
  let entry : SessionEntry :=
    { id := entryId, sessionId, sequence := tables.nextSequence sessionId, parentId, payload
      createdAt }
  let row : EntryRow := { entry, contextual, observationKey }
  demand (tables.entryAdmissible row) Store.constraint
  return ({ tables with
    sessionEntries := tables.sessionEntries ++ [row]
    sessions := if contextual then tables.setLeaf sessionId (some entryId) else tables.sessions },
    entry)

def appendSessionEntry (world : World) (event : JournalEntry) (entryId : MessageId)
    (payload : SessionEntryPayload) (contextual : Bool) :
    Except StoreError (Projection × SessionEntry) := do
  let sessionId ← journalSessionId event
  validateSessionItem world payload
  -- Item keys deduplicate observations; other correlations are provenance only.
  let observationKey := if payload.isObservation then event.correlationId else none
  tables.placeEntry sessionId entryId payload contextual observationKey event.recordedAt

/-- The first Turn of the Session that has not completed. -/
def activeTurn (sessionId : SessionId) : Option TurnId :=
  (tables.turns.find? fun row =>
    row.turn.sessionId = sessionId ∧ row.turn.completedAt = none).map fun row => row.turn.id

def requireNoActiveTurn (sessionId : SessionId) : Except StoreError Unit :=
  match tables.activeTurn sessionId with
  | some active => .error (.activeTurnConflict sessionId active)
  | none => .ok ()

def revisionExists (sessionId : SessionId) (revision : Nat) : Bool :=
  tables.sessions.any fun session => session.id = sessionId ∧
    tables.agentRevisions.any fun row => row.agentId = session.agentId ∧ row.revision = revision

/-- The primary key of `turns`, its idempotency key, and the index that keeps
one active Turn for each Session. -/
def turnAdmissible (row : TurnRow) : Prop :=
  (∀ other ∈ tables.turns, other.turn.id ≠ row.turn.id) ∧
  (∀ key ∈ row.idempotencyKey, ∀ other ∈ tables.turns,
    other.turn.sessionId = row.turn.sessionId → other.idempotencyKey ≠ some key) ∧
  ∀ other ∈ tables.turns, row.turn.completedAt = none →
    other.turn.sessionId = row.turn.sessionId → other.turn.completedAt ≠ none

instance (row : TurnRow) : Decidable (tables.turnAdmissible row) := by
  unfold turnAdmissible
  infer_instance

def insertTurn (row : TurnRow) : Except StoreError Projection := do
  demand (tables.turnAdmissible row) Store.constraint
  return { tables with turns := tables.turns ++ [row] }

def acceptedTurn (event : JournalEntry) (sessionId : SessionId) (turnId : TurnId)
    (agentRevision : Nat) (source : MessageSource) : TurnRow :=
  { turn :=
      { id := turnId, sessionId, agentRevision, harness := none, harnessDefinitionHash := none
        harnessVersion := none, status := .running, error := none
        createdAt := event.recordedAt, completedAt := none }
    idempotencyKey := event.correlationId
    channelOrigin := source.channelOrigin }

def acceptTurn (world : World) (event : JournalEntry) (sessionId : SessionId) (turnId : TurnId)
    (agentRevision : Nat) (entryId : MessageId) (content : MessageContent) (metadata : Value)
    (source : MessageSource) : Except StoreError Projection := do
  tables.requireNoActiveTurn sessionId
  let _ ← tables.currentSessionLeaf sessionId
  let payload := SessionEntryPayload.userMessage content metadata source
  validateSessionItem world payload
  let (tables, _) ← tables.placeEntry sessionId entryId payload true none event.recordedAt
  demand (tables.revisionExists sessionId agentRevision)
    (.invalidData "Turn Agent revision does not belong to its Session Agent")
  tables.insertTurn (acceptedTurn event sessionId turnId agentRevision source)

def turnNotActive (sessionId : SessionId) (turnId : TurnId) : StoreError :=
  .invalidData s!"Turn {turnId.asStr} is not active in Session {sessionId.asStr}"

def startTurn (world : World) (event : JournalEntry) (sessionId : SessionId) (turnId : TurnId)
    (harness : HarnessProvenance) : Except StoreError (Projection × Option Delivery) := do
  demand (tables.isActiveTurn sessionId turnId) (turnNotActive sessionId turnId)
  let tables := { tables with
    turns := updateWhere (fun row => row.turn.id = turnId) (TurnRow.withHarness harness)
      tables.turns }
  let entryId := messageIdForEvent event.id
  let (tables, _) ← tables.appendSessionEntry world event entryId (.turnStarted turnId harness) false
  return (tables, some { entryId := some entryId, kind := .turnStarted turnId })

/-- The four ways a Turn ends share one projection. -/
def projectTurnTerminal (world : World) (event : JournalEntry) (turnId : TurnId)
    (status : TurnStatus) (error : Option String) (payload : SessionEntryPayload)
    (clientKind : ClientEventKind) : Except StoreError (Projection × Option Delivery) := do
  let turns ← updateOne (TurnRow.isActive turnId) (TurnRow.ended status error event.recordedAt)
    tables.turns (.invalidData s!"Turn {turnId.asStr} is missing or already terminal")
  let entryId := messageIdForEvent event.id
  let (tables, _) ← { tables with turns }.appendSessionEntry world event entryId payload false
  return (tables, some { entryId := some entryId, kind := clientKind })

/-- The tool call a request names, as the two columns of `effects`. -/
def effectCall : EffectRequest → Option String × Option String
  | .toolCall call => (some call.callId, some call.tool)
  | _ => (none, none)

def scheduledEffect (event : JournalEntry) (sessionId : SessionId) (operationId : OperationId)
    (turnId : TurnId) (effect : EffectRequest) : EffectRow :=
  { operationId, sessionId, turnId, callId := (effectCall effect).1
    tool := (effectCall effect).2, request := effect, status := .scheduled
    rawResult := none, scheduledJournalEntryId := event.id, terminalJournalEntryId := none
    scheduledAt := event.recordedAt, startedAt := none, completedAt := none }

/-- The primary key of `effects`, its unique calls, and the Session and Turn it
references. -/
def effectAdmissible (row : EffectRow) : Prop :=
  (∀ other ∈ tables.effects, other.operationId ≠ row.operationId) ∧
  (∀ call ∈ row.callId, ∀ other ∈ tables.effects,
    other.turnId = row.turnId → other.callId ≠ some call) ∧
  tables.sessionExists row.sessionId = true ∧ ∃ turn ∈ tables.turns, turn.turn.id = row.turnId

instance (row : EffectRow) : Decidable (tables.effectAdmissible row) := by
  unfold effectAdmissible
  infer_instance

def scheduleEffect (event : JournalEntry) (sessionId : SessionId) (operationId : OperationId)
    (turnId : TurnId) (effect : EffectRequest) : Except StoreError Projection := do
  let row := scheduledEffect event sessionId operationId turnId effect
  demand (tables.effectAdmissible row) Store.constraint
  return { tables with effects := tables.effects ++ [row] }

def startEffect (event : JournalEntry) (operationId : OperationId) :
    Except StoreError Projection := do
  let effects ← updateOne (EffectRow.isScheduled operationId)
    (EffectRow.started event.recordedAt) tables.effects
    (.invalidData s!"effect {operationId.asStr} was not scheduled before it started")
  return { tables with effects }

def setEffectTerminal (event : JournalEntry) (sessionId : SessionId) (operationId : OperationId)
    (turnId : TurnId) (status : EffectStatus) (rawResult : Option ToolResult) :
    Except StoreError Projection := do
  let effects ← updateOne (EffectRow.isOpenOf sessionId turnId operationId)
    (EffectRow.ended status rawResult event) tables.effects
    (.invalidData s!"effect {operationId.asStr} is missing or already terminal")
  return { tables with effects }

/-- The status a raw tool result leaves its effect in. -/
def completionStatus (result : ToolResult) : EffectStatus :=
  if result.uncertain then .uncertain else if result.isError then .failed else .succeeded

/-- An upsert on the Session; the acp session of a Host and Harness is bound to
one Session only. -/
def bindAcpSession (binding : AcpSessionBinding) : Except StoreError Projection := do
  demand (∀ other ∈ tables.acpSessionBindings, other.sessionId ≠ binding.sessionId →
    ¬(other.hostId = binding.hostId ∧ other.harness = binding.harness ∧
      other.acpSessionId = binding.acpSessionId)) Store.constraint
  demand (tables.sessionExists binding.sessionId ∧ tables.hostExists binding.hostId)
    Store.constraint
  return { tables with
    acpSessionBindings :=
      if tables.acpSessionBindings.any fun row => row.sessionId = binding.sessionId then
        updateWhere (fun row => row.sessionId = binding.sessionId)
          (fun row => { binding with createdAt := row.createdAt }) tables.acpSessionBindings
      else tables.acpSessionBindings ++ [binding] }

def dispatchAcpContext (sessionId : SessionId) (hostId : HostId) (harness : String)
    (contextVersion : Nat) (contextHash : String) (channel : AcpInstructionChannel) :
    Except StoreError Projection := do
  let acpSessionBindings ← updateOne
    (fun row => row.sessionId = sessionId ∧ row.hostId = hostId ∧ row.harness = harness ∧
      row.contextVersion = contextVersion ∧ row.contextHash = contextHash ∧
      row.contextChannel = channel)
    (fun row => { row with contextDispatched := true }) tables.acpSessionBindings
    (.invalidData "ACP context dispatch does not match its binding")
  return { tables with acpSessionBindings }

def createSession (session : Session) : Except StoreError Projection := do
  demand (∀ other ∈ tables.sessions, other.id ≠ session.id) Store.constraint
  demand (tables.agentExists session.agentId ∧ tables.hostExists session.hostId) Store.constraint
  return { tables with
    sessions := tables.sessions ++ [{ session with modelOverride := none, leafEntryId := none }] }

def sessionNotFound (sessionId : SessionId) : StoreError :=
  .notFound "session" sessionId.asStr

/-- A client message about an entry the projection just wrote. -/
def entryMessage (event : JournalEntry) (entry : SessionEntry) (role : MessageRole)
    (content : MessageContent) : Message :=
  { id := entry.id, sessionId := entry.sessionId, sequence := entry.sequence, role, content
    metadata := .null, source := messageSourceForEvent event, createdAt := entry.createdAt }

/-- The Session projection, one branch for each kind of entry. -/
def projectSession (world : World) (event : JournalEntry) :
    Except StoreError (Projection × Option Delivery) := do
  let sessionId ← journalSessionId event
  match event.payload with
  | .sessionCreated session => return (← tables.createSession session, none)
  | .sessionModelChanged model =>
      let sessions ← updateOne (fun session => session.id = sessionId)
        (fun session => { session with modelOverride := model }) tables.sessions
        (sessionNotFound sessionId)
      return ({ tables with sessions }, none)
  | .userMessageAppended entryId content metadata source =>
      let (tables, _) ← tables.appendSessionEntry world event entryId
        (.userMessage content metadata source) true
      return (tables, none)
  | .sessionLeafChanged leafEntryId =>
      let sessions ← updateOne (fun session => session.id = sessionId)
        (fun session => { session with leafEntryId }) tables.sessions (sessionNotFound sessionId)
      return ({ tables with sessions }, none)
  | .turnAccepted turnId agentRevision entryId content metadata source =>
      return (← tables.acceptTurn world event sessionId turnId agentRevision entryId content
        metadata source, none)
  | .turnStarted turnId harness => tables.startTurn world event sessionId turnId harness
  | .assistantResponseRecorded turnId entryId response =>
      let (tables, entry) ← tables.appendSessionEntry world event entryId
        (.assistantResponse turnId response) true
      return (tables,
        if response.text = "" then none
        else some
          { entryId := some entryId
            kind := .assistantMessage turnId
              (entryMessage event entry .assistant (.text response.text)) })
  | .toolCallRequested turnId entryId call =>
      let (tables, entry) ← tables.appendSessionEntry world event entryId
        (.toolStarted turnId call) false
      return (tables, some
        { entryId := some entryId
          kind := .toolStarted turnId (entryMessage event entry .assistant
            (.toolCall call.callId call.tool call.arguments call.thoughtSignature)) })
  | .toolResultRecorded turnId entryId result =>
      let (tables, entry) ← tables.appendSessionEntry world event entryId
        (.toolResult turnId result) true
      return (tables, some
        { entryId := some entryId
          kind := .toolCompleted turnId (entryMessage event entry .tool
            (.toolResult result.callId result.tool result.result result.isError
              result.uncertain)) })
  | .toolExecutionCompleted operationId turnId result =>
      return (← tables.setEffectTerminal event sessionId operationId turnId
        (completionStatus result) (some result), none)
  | .reasoningRecorded turnId entryId text visibility provenance =>
      let (tables, _) ← tables.appendSessionEntry world event entryId
        (.reasoning turnId text visibility provenance) false
      return (tables, none)
  | .harnessObservationRecorded turnId entryId harnessSessionId kind data =>
      let (tables, _) ← tables.appendSessionEntry world event entryId
        (.harnessObservation turnId harnessSessionId kind data) false
      return (tables, none)
  | .contextCompacted entryId summary firstKeptEntryId tokensBefore =>
      let (tables, _) ← tables.appendSessionEntry world event entryId
        (.contextCompaction summary firstKeptEntryId tokensBefore) true
      return (tables, none)
  | .effectScheduled operationId turnId effect =>
      return (← tables.scheduleEffect event sessionId operationId turnId effect, none)
  | .effectStarted operationId _ => return (← tables.startEffect event operationId, none)
  | .effectSucceeded operationId turnId _ =>
      return (← tables.setEffectTerminal event sessionId operationId turnId .succeeded none, none)
  | .effectFailed operationId turnId _ =>
      return (← tables.setEffectTerminal event sessionId operationId turnId .failed none, none)
  | .effectUncertain operationId turnId _ =>
      return (← tables.setEffectTerminal event sessionId operationId turnId .uncertain none, none)
  | .acpBindingChanged binding => return (← tables.bindAcpSession binding, none)
  | .acpContextDispatched hostId harness contextVersion contextHash channel =>
      return (← tables.dispatchAcpContext sessionId hostId harness contextVersion contextHash
        channel, none)
  | .turnCompleted turnId stopReason =>
      tables.projectTurnTerminal world event turnId .completed none
        (.turnCompleted turnId stopReason) (.turnCompleted turnId)
  | .turnFailed turnId error =>
      tables.projectTurnTerminal world event turnId .failed (some error)
        (.turnFailed turnId error) (.turnFailed turnId error)
  | .turnCancelled turnId =>
      tables.projectTurnTerminal world event turnId .cancelled none
        (.turnCancelled turnId) (.turnCancelled turnId)
  | .turnInterrupted turnId reason =>
      tables.projectTurnTerminal world event turnId .failed (some reason)
        (.turnFailed turnId reason) (.turnFailed turnId reason)
  | _ => return (tables, none)

end Projection

end Mews
