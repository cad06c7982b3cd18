import Mews.Core.Words
import Mews.Store.Projection

/-!
# The journal and its commands

Every change of an authoritative table is a journal entry followed by its
projection, inside one transaction.  `transactCommand` is the shared body of
the retryable application commands.
-/

namespace Mews

open Protocol

/-- `u64::MAX` in decimal, the widest sequence a client event can get. -/
def maxSequenceDigits : Nat := 20

def maxEventPagePayloadBytes : Nat := 1024 * 1024 - 256 * 1024

/-- `value.trim().is_empty()`. -/
def isBlank (text : String) : Bool :=
  text.toList.all isWhitespace

structure CommandContext where
  commandId : String
  actor : EventActor
  correlationId : Option String
  deriving DecidableEq, Repr

def CommandContext.operationId (context : CommandContext) (operation : String) : CommandId :=
  .operation operation context.commandId

structure NewJournalEntry where
  id : EventId
  actor : EventActor
  correlationId : Option String
  payload : JournalEvent
  deriving DecidableEq, Repr

structure JournalSubjectAppend where
  subject : JournalSubject
  entries : List NewJournalEntry
  deriving DecidableEq, Repr

/-- State mutations, journal entries, and the retry receipt commit together. -/
structure JournalAppend where
  commandId : CommandId
  requestHash : Digest
  result : CommandResult
  subjects : List JournalSubjectAppend
  deriving DecidableEq

/-- The entries of an append with their subjects, in the order they are
committed. -/
def JournalAppend.items (append : JournalAppend) : List (JournalSubject × NewJournalEntry) :=
  append.subjects.flatMap fun subject =>
    subject.entries.map fun entry => (subject.subject, entry)

def CommandContext.decorate (context : CommandContext) (append : JournalAppend) :
    JournalAppend :=
  { append with
    subjects := append.subjects.map fun subject =>
      { subject with
        entries := subject.entries.map fun entry =>
          { entry with actor := context.actor, correlationId := context.correlationId } } }

/-- The receipt of a committed append. -/
def JournalAppend.receipt (append : JournalAppend) (committed : List JournalEntry)
    (recordedAt : DateTime) : CommandReceipt :=
  { commandId := append.commandId, requestHash := append.requestHash, result := append.result
    firstPosition := committed.head?.map (·.position)
    lastPosition := committed.getLast?.map (·.position)
    completedAt := recordedAt }

inductive AppendOutcome where
  | appended (entries : List JournalEntry) (receipt : CommandReceipt)
  | replayed (receipt : CommandReceipt)
  deriving DecidableEq

def AppendOutcome.receipt : AppendOutcome → CommandReceipt
  | .appended _ receipt | .replayed receipt => receipt

def AppendOutcome.wasReplayed : AppendOutcome → Bool
  | .appended .. => false
  | .replayed _ => true

/-- A command output that can be read back from its receipt. -/
class CommandOutput (T : Type) where
  encode : T → CommandResult
  decode : CommandResult → Option T
  decode_encode : ∀ value, decode (encode value) = some value

instance : CommandOutput Unit where
  encode _ := .none
  decode
    | .none => some ()
    | _ => none
  decode_encode _ := rfl

instance : CommandOutput (Agent × AgentRevision) where
  encode output := .agentCreated output.1 output.2
  decode
    | .agentCreated agent revision => some (agent, revision)
    | _ => none
  decode_encode _ := rfl

instance : CommandOutput Agent where
  encode := .agent
  decode
    | .agent agent => some agent
    | _ => none
  decode_encode _ := rfl

instance : CommandOutput AgentRevision where
  encode := .revision
  decode
    | .revision revision => some revision
    | _ => none
  decode_encode _ := rfl

instance : CommandOutput Host where
  encode := .host
  decode
    | .host host => some host
    | _ => none
  decode_encode _ := rfl

instance : CommandOutput Installation where
  encode := .installation
  decode
    | .installation installation => some installation
    | _ => none
  decode_encode _ := rfl

def validateNonEmpty (label value : String) : Except StoreError Unit :=
  demand (¬isBlank value) (.invalidData s!"{label} cannot be empty")

def validateNewEntry (subject : JournalSubject) (entry : NewJournalEntry) :
    Except StoreError Unit := do
  demand (entry.payload.subjectType = subject.kind)
    (.invalidData s!"event {entry.payload.eventType.asStr} belongs to a {entry.payload.subjectType.asStr} subject, not {subject.kind.asStr}")
  (entry.payload.validateSubjectId subject).mapError .invalidData

/-- The request hash is a digest by its type, so only the identifiers and the
entries are checked here. -/
def validateAppend (append : JournalAppend) : Except StoreError Unit := do
  validateNonEmpty "command ID" append.commandId.asStr
  append.subjects.forM fun subject => validateNonEmpty "journal subject ID" subject.subject.id
  demand (append.subjects.map (·.subject)).Nodup
    (.invalidData "journal subject appears more than once in one append")
  demand (append.subjects.flatMap fun subject => subject.entries.map (·.id)).Nodup
    (.invalidData "journal entry ID appears more than once in one append")
  append.subjects.forM fun subject => subject.entries.forM (validateNewEntry subject.subject)

namespace Store

def lastPosition (store : Store) : Nat :=
  (store.journalEntries.getLast?.map (·.position)).getD 0

/-- Adds a row to `client_events` under its constraints. -/
def insertClientEvent (body : ClientEventBody) (origin : ClientEventOrigin) : Action Unit := do
  let store ← Tx.reads id
  let row : ClientEventRow := { sequence := store.clientEventSequence + 1, body, origin }
  Tx.require (∀ other ∈ store.clientEvents, other.body.id ≠ body.id) constraint
  Tx.require (∀ key ∈ row.idempotencyKey, ∀ other ∈ store.clientEvents,
    other.body.sessionId = body.sessionId → other.idempotencyKey ≠ some key) constraint
  Tx.require (store.projection.sessionExists body.sessionId) constraint
  match origin with
  | .transient _ => pure ()
  | .durable entryId journalEntryId _ => do
      Tx.require (∀ id ∈ entryId, ∃ other ∈ store.projection.timeline body.sessionId,
        other.entry.id = id) constraint
      Tx.require (∃ entry ∈ store.journalEntries, entry.id = journalEntryId) constraint
  Tx.modify fun store => { store with
    clientEvents := store.clientEvents ++ [row]
    clientEventSequence := row.sequence }

/-- The channel a Turn came from; the Turn is looked up by its identifier alone. -/
def channelOriginOf (tables : Projection) (kind : ClientEventKind) : Option ChannelOrigin :=
  (tables.turns.find? fun row => row.turn.id = kind.turnId).bind fun row => row.channelOrigin

def validateClientEvent (world : World) (body : ClientEventBody) : Except StoreError Unit :=
  demand (world.eventBytes body + maxSequenceDigits ≤ maxEventPagePayloadBytes)
    (.invalidData "client event exceeds the event page limit")

def appendDurableClientEvent (world : World) (entry : JournalEntry) (delivery : Delivery) :
    Action Unit := do
  let sessionId ← Tx.lift (journalSessionId entry)
  let channelOrigin ← select fun tables => channelOriginOf tables delivery.kind
  let body : ClientEventBody :=
    { id := entry.id, sessionId, channelOrigin, kind := delivery.kind
      createdAt := entry.recordedAt }
  Tx.lift (validateClientEvent world body)
  insertClientEvent body (.durable delivery.entryId entry.id entry.position)

/-- Projects one committed Session entry and delivers its client event. -/
def applySessionJournalEntry (world : World) (event : JournalEntry) : Action Unit := do
  let tables ← Tx.reads fun store => store.projection
  let (tables, delivery) ← Tx.lift (tables.projectSession world event)
  Tx.modify fun store => { store with projection := tables }
  match delivery with
  | none => pure ()
  | some delivery => appendDurableClientEvent world event delivery

def insertEntry (commandId : Option CommandId) (subject : JournalSubject)
    (recordedAt : DateTime) (entry : NewJournalEntry) : Action JournalEntry := do
  let store ← Tx.reads id
  Tx.require (∀ other ∈ store.journalEntries, other.id ≠ entry.id) constraint
  let committed : JournalEntry :=
    { id := entry.id, position := store.lastPosition + 1, subject, recordedAt
      actor := entry.actor, commandId, correlationId := entry.correlationId
      payload := entry.payload }
  Tx.modify fun store => { store with journalEntries := store.journalEntries ++ [committed] }
  Tx.lift (committed.validate.mapError .invalidData)
  return committed

/-- Adds a journal entry inside an existing authoritative-state transaction.
Without a correlation of its own it gets the Turn of its payload. -/
def recordJournalEntry (world : World) (subject : JournalSubject) (entry : NewJournalEntry) :
    Action JournalEntry := do
  let entry := { entry with
    correlationId := entry.correlationId <|> entry.payload.payloadTurnId.map (·.asStr) }
  Tx.lift (validateNewEntry subject entry)
  let recordedAt ← utcNow world
  insertEntry none subject recordedAt entry

def recordSessionEventCorrelated (world : World) (sessionId : SessionId) (actor : EventActor)
    (payload : JournalEvent) (correlationId : Option String) : Action JournalEntry := do
  let id ← newId world
  recordJournalEntry world (.session sessionId) ⟨id, actor, correlationId, payload⟩

/-- Records a Session event and projects it at once, as every caller does. -/
def appendSessionEventCorrelated (world : World) (sessionId : SessionId) (actor : EventActor)
    (payload : JournalEvent) (correlationId : Option String) : Action JournalEntry := do
  let event ← recordSessionEventCorrelated world sessionId actor payload correlationId
  applySessionJournalEntry world event
  return event

def appendSessionEvent (world : World) (sessionId : SessionId) (actor : EventActor)
    (payload : JournalEvent) : Action JournalEntry :=
  appendSessionEventCorrelated world sessionId actor payload none

def selectCommandReceipt (store : Store) (commandId : CommandId) : Option CommandReceipt :=
  store.commandReceipts.find? fun receipt => receipt.commandId = commandId

/-- Inserts the entries of one subject after the other, in order. -/
def insertEntries (commandId : CommandId) (recordedAt : DateTime) :
    List (JournalSubject × NewJournalEntry) → Action (List JournalEntry)
  | [] => return []
  | (subject, entry) :: rest => do
      let committed ← insertEntry (some commandId) subject recordedAt entry
      let others ← insertEntries commandId recordedAt rest
      return committed :: others

def appendJournalEntriesIn (world : World) (append : JournalAppend)
    (mutate : List JournalEntry → Action Unit) : Action AppendOutcome := do
  Tx.lift (validateAppend append)
  match ← Tx.reads fun store => store.selectCommandReceipt append.commandId with
  | some receipt =>
      Tx.require (receipt.requestHash = append.requestHash) (.commandConflict append.commandId)
      return .replayed receipt
  | none =>
      let recordedAt ← utcNow world
      let committed ← insertEntries append.commandId recordedAt append.items
      mutate committed
      let receipt := append.receipt committed recordedAt
      Tx.modify fun store => { store with commandReceipts := store.commandReceipts ++ [receipt] }
      return .appended committed receipt

def appendJournalEntriesWith (world : World) (append : JournalAppend)
    (mutate : List JournalEntry → Action Unit) : Action AppendOutcome :=
  transaction (appendJournalEntriesIn world append mutate)

/-- Runs an idempotent command in one transaction.  The decision reads the
tables only after a retry has been ruled out; the flag tells a replay. -/
def transactCommand {T : Type} [CommandOutput T] (world : World) (context : CommandContext)
    (operation : String) (requestHash : Digest)
    (decide : Action (T × List JournalSubjectAppend))
    (mutate : List JournalEntry → Action Unit) : Action (T × Bool) :=
  transaction do
    let commandId := context.operationId operation
    match ← Tx.reads fun store => store.selectCommandReceipt commandId with
    | some receipt =>
        Tx.require (receipt.requestHash = requestHash) (.commandConflict commandId)
        let result ← Tx.expect (CommandOutput.decode receipt.result)
          (.invalidData "command receipt does not hold the result of its command")
        return (result, true)
    | none =>
        let (result, subjects) ← decide
        let append : JournalAppend :=
          { commandId, requestHash, result := CommandOutput.encode result, subjects }
        let _ ← appendJournalEntriesIn world (context.decorate append) mutate
        return (result, false)

end Store

end Mews
