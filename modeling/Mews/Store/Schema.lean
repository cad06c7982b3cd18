import Mews.Core.Table
import Mews.Core.Transaction
import Mews.Protocol.Events

/-!
# The Store schema

The tables of the Hub database, the errors of the Store, and the code outside
the repository that the Store calls.  Rows are kept in `rowid` order and hold
typed values, so decoding a stored column cannot fail.  The columns that repeat
data of the payload stored beside them (`kind`, `event_type`) are left out.
-/

namespace Mews

open Protocol

/-- The lowercase hexadecimal text of a SHA-256 digest. -/
structure Digest where
  text : String
  hex : text.length = 64 ∧ text.toList.all (fun digit => digit.isDigit || ('a' ≤ digit && digit ≤ 'f'))
  deriving DecidableEq

inductive ToolExecutionMode where
  | sequential
  | parallel
  deriving DecidableEq, Repr

structure AgentConfig where
  harness : String
  harnessOptions : List (String × String)
  tools : List String
  toolExecution : ToolExecutionMode
  deriving DecidableEq, Repr

/-- The JSON objects that commands hash as their request. -/
inductive CommandRequest where
  | initializeHub (hostName hostPublicKey hostNoisePublicKey installationPublicKey : String)
  | relayUrl (relayUrl : String)
  | createAgent (slug soul configToml : String) (authorHostId : HostId)
  | renameAgent (slug newSlug : String)
  | archiveAgent (slug : String)
  | updateAgent (agentId : AgentId) (expectedRevision : Nat) (soul configToml : String)
      (authorHostId : HostId)
  | revokeHost (hostId : HostId)
  | createInvitation (expiresAt : DateTime)
  | consumeInvitation (invitationId : InvitationId)
      (secretHash name publicKey noisePublicKey relayUrl : String)
  | setDefaultModel (model : String)
  | setDefaultReasoning (reasoning : Option ReasoningEffort)
  | moveHub (expected target : HostId)
  | turn (sessionId : SessionId) (content : MessageContent) (metadata : Value)
      (source : MessageSource)
  deriving DecidableEq, Repr

/-- What the Store takes from outside the repository.  `uuid`, `now` and
`secret` are the values of successive draws from the operating system; the
others are the hash, JSON and TOML libraries as functions of what they read. -/
structure World where
  uuid : Nat → String
  now : Nat → DateTime
  secret : Nat → String
  requestHash : CommandRequest → Digest
  secretHash : String → String
  contentHash : String → String → String
  renderedHash : String → String
  parseConfig : String → Except String AgentConfig
  itemBytes : SessionEntryPayload → Nat
  metadataBytes : Value → Nat
  /-- The serialized length of a client event without the digits of its
  sequence. -/
  eventBytes : ClientEventBody → Nat

/-- Draws are numbered, every request has one hash and every text is its own. -/
def World.numbered : World where
  uuid draw := toString draw
  now draw := draw
  secret draw := toString draw
  requestHash _ := ⟨String.ofList (List.replicate 64 '0'), by decide⟩
  secretHash secret := secret
  contentHash soul configToml := soul ++ configToml
  renderedHash text := text
  parseConfig harness :=
    .ok { harness, harnessOptions := [], tools := [], toolExecution := .parallel }
  itemBytes _ := 1
  metadataBytes _ := 2
  eventBytes _ := 64

/-- Errors of the database engine that the Store passes on. -/
inductive DatabaseError where
  | constraint
  | queryReturnedNoRows
  deriving DecidableEq, Repr

inductive StoreError where
  | database (error : DatabaseError)
  | invalidData (message : String)
  | notFound (kind id : String)
  | duplicateAgent (slug : String)
  | revisionConflict (expected current : Nat)
  | commandConflict (commandId : CommandId)
  | activeTurnConflict (sessionId : SessionId) (turnId : TurnId)
  | leafConflict (expected current : Option MessageId)
  | invalidAgent (message : String)
  deriving DecidableEq, Repr

/-! ## Rows -/

structure HostRow where
  host : Host
  revoked : Bool
  deriving DecidableEq, Repr

/-- A timeline row.  `contextual` entries form the parent chain and
`observationKey` deduplicates observations. -/
structure EntryRow where
  entry : SessionEntry
  contextual : Bool
  observationKey : Option String
  deriving DecidableEq, Repr

structure TurnRow where
  turn : Turn
  idempotencyKey : Option String
  channelOrigin : Option ChannelOrigin
  deriving DecidableEq, Repr

structure InvitationRow where
  id : InvitationId
  secretHash : String
  expiresAt : DateTime
  consumedAt : Option DateTime
  deriving DecidableEq, Repr

inductive EffectStatus where
  | scheduled
  | started
  | succeeded
  | failed
  | uncertain
  deriving DecidableEq, Repr

/-- `status IN ('scheduled', 'started')`. -/
def EffectStatus.isOpen : EffectStatus → Bool
  | .scheduled | .started => true
  | .succeeded | .failed | .uncertain => false

structure EffectRow where
  operationId : OperationId
  sessionId : SessionId
  turnId : TurnId
  callId : Option String
  tool : Option String
  request : EffectRequest
  status : EffectStatus
  rawResult : Option ToolResult
  scheduledJournalEntryId : EventId
  terminalJournalEntryId : Option EventId
  scheduledAt : DateTime
  startedAt : Option DateTime
  completedAt : Option DateTime
  deriving DecidableEq, Repr

/-- A durable client event points at its journal entry; a transient one never
does, and only a transient one can carry an idempotency key. -/
inductive ClientEventOrigin where
  | durable (entryId : Option MessageId) (journalEntryId : EventId) (journalPosition : Nat)
  | transient (idempotencyKey : Option String)
  deriving DecidableEq, Repr

structure ClientEventRow where
  sequence : Nat
  body : ClientEventBody
  origin : ClientEventOrigin
  deriving DecidableEq, Repr

def ClientEventRow.transient (row : ClientEventRow) : Bool :=
  match row.origin with
  | .durable .. => false
  | .transient _ => true

def ClientEventRow.idempotencyKey (row : ClientEventRow) : Option String :=
  match row.origin with
  | .durable .. => none
  | .transient key => key

def ClientEventRow.event (row : ClientEventRow) : ClientEvent :=
  { sequence := row.sequence, body := row.body }

structure ConsumerRow where
  id : ConsumerId
  cursor : Nat
  kind : ConsumerKind
  createdAt : DateTime
  lastSeenAt : DateTime
  deriving DecidableEq, Repr

structure Subscription where
  consumerId : ConsumerId
  sessionId : SessionId
  deriving DecidableEq, Repr

/-- The recorded result of a command, by the type the command returns. -/
inductive CommandResult where
  | installation (installation : Installation)
  | none
  | agentCreated (agent : Agent) (revision : AgentRevision)
  | agent (agent : Agent)
  | revision (revision : AgentRevision)
  | invitation (id : InvitationId)
  | host (host : Host)
  | turn (turnId : TurnId) (entryId : MessageId)
  deriving DecidableEq, Repr

structure CommandReceipt where
  commandId : CommandId
  requestHash : Digest
  result : CommandResult
  firstPosition : Option Nat
  lastPosition : Option Nat
  completedAt : DateTime
  deriving DecidableEq

/-! ## Tables -/

/-- The tables that are projected from the journal. -/
structure Projection where
  hosts : List HostRow
  installation : Option Installation
  /-- The two `settings` rows. -/
  settings : ProviderDefaults
  agents : List Agent
  agentRevisions : List AgentRevision
  sessions : List Session
  acpSessionBindings : List AcpSessionBinding
  sessionEntries : List EntryRow
  turns : List TurnRow
  invitations : List InvitationRow
  effects : List EffectRow
  deriving DecidableEq, Repr

def Projection.empty : Projection :=
  { hosts := [], installation := none, settings := { model := none, reasoning := none }
    agents := [], agentRevisions := [], sessions := [], acpSessionBindings := []
    sessionEntries := [], turns := [], invitations := [], effects := [] }

/-- `clientEventSequence` is the `AUTOINCREMENT` watermark of the client events
and `drawn` counts the draws made from the operating system. -/
structure Store where
  projection : Projection
  journalEntries : List JournalEntry
  commandReceipts : List CommandReceipt
  clientEvents : List ClientEventRow
  clientEventSequence : Nat
  clientConsumers : List ConsumerRow
  clientSubscriptions : List Subscription
  drawn : Nat
  deriving DecidableEq

namespace Store

def empty : Store :=
  { projection := .empty, journalEntries := [], commandReceipts := [], clientEvents := []
    clientEventSequence := 0, clientConsumers := [], clientSubscriptions := [], drawn := 0 }

/-- A computation inside one Store call. -/
abbrev Action (A : Type) : Type := Tx Store StoreError A

/-- What a rolled back transaction leaves behind: the draws it made. -/
def rollback (before reached : Store) : Store :=
  { before with drawn := reached.drawn }

/-- Everything up to `commit`, or nothing. -/
def transaction {A : Type} (body : Action A) : Action A :=
  Tx.atomically rollback body

def invalidData {A : Type} (message : String) : Action A :=
  Tx.fail (.invalidData message)

def queryReturnedNoRows : StoreError := .database .queryReturnedNoRows

def constraint : StoreError := .database .constraint

section Draws

variable (world : World)

/-- The identifier constructor `new`, a prefix and a fresh UUID. -/
def newId {marker : String} : Action (TaggedId marker) := fun store =>
  (.ok { uuid := world.uuid store.drawn }, { store with drawn := store.drawn + 1 })

/-- `Utc::now()`. -/
def utcNow : Action DateTime := fun store =>
  (.ok (world.now store.drawn), { store with drawn := store.drawn + 1 })

def newSecret : Action String := fun store =>
  (.ok (world.secret store.drawn), { store with drawn := store.drawn + 1 })

end Draws

/-- Reads the projected tables. -/
def select {A : Type} (query : Projection → A) : Action A :=
  Tx.reads fun store => query store.projection

end Store

end Mews
