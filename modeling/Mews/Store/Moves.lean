import Mews.Store.Command

/-!
# Moves

What the Store can do, said once.  Every command is a chain of moves: a draw, a
journal entry with its projection and delivery, a batch of aggregate entries, a
receipt, or a change of the delivery tables.  A Session entry comes with what
the code has checked before recording it (`Lawful`).  Invariants are proved for
moves and hold of every run.
-/

namespace Mews

open Protocol

/-- The effect has been closed, or may still be started or finished. -/
def Projection.NoOpenEffects (tables : Projection) (turnId : TurnId) : Prop :=
  ∀ row ∈ tables.effects, row.turnId = turnId → row.status.isOpen = false

def Projection.TurnEnded (tables : Projection) (turnId : TurnId) : Prop :=
  ∃ row ∈ tables.turns, row.turn.id = turnId ∧ row.turn.completedAt ≠ none

/-- What a command may do: the Turns it terminates, the events it records, the
subscriptions it gives up and the checkpoints it acknowledges. -/
structure Footprint where
  closing : TurnId → Prop
  produces : JournalEvent → Prop
  leaving : ConsumerId → SessionId → Prop
  acknowledges : ConsumerId → Nat → Prop

/-- What the code has established when it records a Session event.  `closing`
holds of the Turns the current command is terminating. -/
def Lawful (closing : TurnId → Prop) (tables : Projection) (sessionId : SessionId) :
    JournalEvent → Prop
  | .assistantResponseRecorded turnId .. | .toolCallRequested turnId ..
  | .toolResultRecorded turnId .. | .effectScheduled _ turnId _ =>
      tables.isActiveTurn sessionId turnId = true
  | .toolExecutionCompleted operationId turnId result =>
      tables.isActiveTurn sessionId turnId = true ∧
      ∃ row ∈ tables.effects, row.operationId = operationId ∧ row.sessionId = sessionId ∧
        row.turnId = turnId ∧ row.callId = some result.callId ∧ row.status = .started
  | .effectStarted operationId turnId =>
      tables.isActiveTurn sessionId turnId = true ∧
      Store.ownsEffect sessionId turnId operationId .scheduled tables = true
  | .effectSucceeded operationId turnId _ | .effectUncertain operationId turnId _ =>
      tables.isActiveTurn sessionId turnId = true ∧
      Store.ownsEffect sessionId turnId operationId .started tables = true
  | .effectFailed operationId turnId _ =>
      tables.isActiveTurn sessionId turnId = true ∧
      (Store.ownsEffect sessionId turnId operationId .started tables = true ∨
        closing turnId ∧ Store.ownsEffect sessionId turnId operationId .scheduled tables = true)
  | .turnCompleted turnId _ | .turnFailed turnId _ | .turnCancelled turnId
  | .turnInterrupted turnId _ =>
      tables.isActiveTurn sessionId turnId = true ∧ tables.NoOpenEffects turnId
  | .sessionLeafChanged leaf =>
      ∀ id ∈ leaf, ∃ row ∈ tables.timeline sessionId, row.entry.id = id ∧ row.contextual = true
  | .contextCompacted _ _ firstKeptEntryId _ =>
      ∃ entry ∈ tables.activeEntries sessionId, entry.id = firstKeptEntryId
  | _ => True

/-- What the code has established when it records a batch of aggregate events. -/
def LawfulAggregate (tables : Projection) (batch : List JournalEvent) : JournalEvent → Prop
  | .agentCreated agent initialRevision =>
      agent.currentRevision = 1 ∧ initialRevision.agentId = agent.id ∧
      initialRevision.revision = 1
  | .installationCreated installation => installation.generation = 1
  | .hubChanged hostId generation =>
      batch = [.hubChanged hostId generation] ∧ Store.hostActive hostId tables = true ∧
      ∃ installation, tables.installation = some installation ∧
        generation = installation.generation + 1
  | _ => True

/-- The projections of the aggregates outside Sessions, one after the other. -/
def Projection.projectAggregate (tables : Projection) (event : JournalEntry) :
    Except StoreError Projection := do
  let tables ← tables.projectAgent event
  let tables ← tables.projectHost event
  tables.projectInstallation event

namespace Store

/-- The body of the client event an entry is delivered as. -/
def deliveryBody (tables : Projection) (sessionId : SessionId) (entry : JournalEntry)
    (delivery : Delivery) : ClientEventBody :=
  { id := entry.id, sessionId, channelOrigin := channelOriginOf tables delivery.kind
    kind := delivery.kind, createdAt := entry.recordedAt }

def publish (store : Store) (sessionId : SessionId) (entry : JournalEntry) :
    Option Delivery → Store
  | none => store
  | some delivery => { store with
      clientEvents := store.clientEvents ++ [{
        sequence := store.clientEventSequence + 1
        body := deliveryBody store.projection sessionId entry delivery
        origin := .durable delivery.entryId entry.id entry.position }]
      clientEventSequence := store.clientEventSequence + 1 }

section Publish

variable (store : Store) (sessionId : SessionId) (entry : JournalEntry)
  (delivery : Option Delivery)

@[simp] theorem publish_projection :
    (store.publish sessionId entry delivery).projection = store.projection := by
  cases delivery <;> rfl

@[simp] theorem publish_journalEntries :
    (store.publish sessionId entry delivery).journalEntries = store.journalEntries := by
  cases delivery <;> rfl

@[simp] theorem publish_commandReceipts :
    (store.publish sessionId entry delivery).commandReceipts = store.commandReceipts := by
  cases delivery <;> rfl

@[simp] theorem publish_clientConsumers :
    (store.publish sessionId entry delivery).clientConsumers = store.clientConsumers := by
  cases delivery <;> rfl

@[simp] theorem publish_clientSubscriptions :
    (store.publish sessionId entry delivery).clientSubscriptions =
      store.clientSubscriptions := by
  cases delivery <;> rfl

end Publish

/-- The conditions under which a delivery can be inserted, on the tables the
entry was projected to. -/
def Deliverable (world : World) (tables : Projection) (sessionId : SessionId)
    (entry : JournalEntry) (delivery : Delivery) : Prop :=
  validateClientEvent world (deliveryBody tables sessionId entry delivery) = .ok () ∧
  tables.sessionExists sessionId = true ∧
  ∀ id ∈ delivery.entryId, ∃ other ∈ tables.timeline sessionId, other.entry.id = id

/-- The changes of the delivery tables other than publishing an entry. -/
inductive DeliveryMove (footprint : Footprint) : Store → Store → Prop
  | signalled (store : Store) (body : ClientEventBody) (key : Option String)
      (hid : ∀ other ∈ store.clientEvents, other.body.id ≠ body.id)
      (hkey : ∀ text ∈ key, store.idempotencyKeyExists body.sessionId text = false) :
      DeliveryMove footprint store { store with
        clientEvents := store.clientEvents ++
          [{ sequence := store.clientEventSequence + 1, body, origin := .transient key }]
        clientEventSequence := store.clientEventSequence + 1 }
  | ignored (store : Store) :
      DeliveryMove footprint store
        { store with clientEventSequence := store.clientEventSequence + 1 }
  | transientDropped (store : Store) :
      DeliveryMove footprint store { store with
        clientEvents := store.clientEvents.filter fun row => !row.transient }
  | pruned (store : Store) : DeliveryMove footprint store store.dropPrunable
  | consumerAdded (store : Store) (consumerId : ConsumerId) (kind : ConsumerKind)
      (now : DateTime) (hnew : store.findConsumer consumerId = none) :
      DeliveryMove footprint store { store with
        clientConsumers := store.clientConsumers ++
          [{ id := consumerId, cursor := (store.clientEvents.map (·.sequence)).foldr max 0
             kind, createdAt := now, lastSeenAt := now }] }
  | consumerTouched (store : Store) (consumerId : ConsumerId) (now : DateTime) :
      DeliveryMove footprint store (touchConsumer consumerId id now store)
  | acknowledged (store : Store) (consumerId : ConsumerId) (checkpoint : Nat) (now : DateTime)
      (hcheckpoint : checkpoint ≤ store.clientEventSequence)
      (hacknowledges : footprint.acknowledges consumerId checkpoint) :
      DeliveryMove footprint store (touchConsumer consumerId (max checkpoint) now store)
  | consumersRemoved (store : Store) (gone : ConsumerRow → Bool)
      (hgone : ∀ consumer ∈ store.clientConsumers, gone consumer = true →
        consumer.kind = .ephemeral ∨ ∀ sessionId, footprint.leaving consumer.id sessionId) :
      DeliveryMove footprint store (store.removeConsumers gone)
  | subscribed (store : Store) (consumerId : ConsumerId) (sessionId : SessionId) :
      DeliveryMove footprint store { store with
        clientSubscriptions := store.clientSubscriptions ++ [{ consumerId, sessionId }] }
  | unsubscribed (store : Store) (gone : Subscription → Bool)
      (hgone : ∀ row ∈ store.clientSubscriptions, gone row = true →
        footprint.leaving row.consumerId row.sessionId) :
      DeliveryMove footprint store { store with
        clientSubscriptions := store.clientSubscriptions.filter fun row => !gone row }

theorem DeliveryMove.keeps {footprint : Footprint} {store store' : Store}
    (hmove : DeliveryMove footprint store store') :
    store'.projection = store.projection ∧ store'.journalEntries = store.journalEntries ∧
      store'.commandReceipts = store.commandReceipts := by
  cases hmove <;> exact ⟨rfl, rfl, rfl⟩

/-- The receipt of an accepted Turn names a Turn and a user message that exist
in its Session. -/
def ReceiptHolds (tables : Projection) (receipt : CommandReceipt) : Prop :=
  ∀ sessionId key, receipt.commandId = .turn sessionId key →
    ∃ turnId entryId, receipt.result = .turn turnId entryId ∧
      (∃ row ∈ tables.turns, row.turn.id = turnId ∧ row.turn.sessionId = sessionId) ∧
      ∃ row ∈ tables.timeline sessionId, row.entry.id = entryId ∧
        ∃ content metadata source, row.entry.payload = .userMessage content metadata source

/-- One move of the Store on behalf of a command. -/
inductive Move (world : World) (footprint : Footprint) : Store → Store → Prop
  | drew (store : Store) (drawn : Nat) :
      Move world footprint store { store with drawn }
  | projected (store : Store) (sessionId : SessionId) (entry : JournalEntry)
      (tables : Projection) (delivery : Option Delivery)
      (hsubject : entry.subject = .session sessionId)
      (hid : ∀ other ∈ store.journalEntries, other.id ≠ entry.id)
      (hposition : entry.position = store.lastPosition + 1)
      (hlawful : Lawful footprint.closing store.projection sessionId entry.payload)
      (hproduces : footprint.produces entry.payload)
      (hproject : store.projection.projectSession world entry = .ok (tables, delivery))
      (hfresh : ∀ other ∈ store.clientEvents, delivery ≠ none → other.body.id ≠ entry.id)
      (hdeliver : ∀ sent ∈ delivery, Deliverable world tables sessionId entry sent) :
      Move world footprint store
        (publish { store with
          journalEntries := store.journalEntries ++ [entry], projection := tables }
          sessionId entry delivery)
  | aggregated (store : Store) (entries : List JournalEntry) (tables : Projection)
      (hsubject : ∀ entry ∈ entries, entry.subject.kind ≠ .session)
      (hid : ∀ entry ∈ entries, ∀ other ∈ store.journalEntries, other.id ≠ entry.id)
      (hnodup : (entries.map (·.id)).Nodup)
      (hposition : entries.map (·.position) =
        List.range' (store.lastPosition + 1) entries.length)
      (hlawful : ∀ entry ∈ entries,
        LawfulAggregate store.projection (entries.map (·.payload)) entry.payload)
      (hproduces : ∀ entry ∈ entries, footprint.produces entry.payload)
      (hproject : entries.foldlM Projection.projectAggregate store.projection = .ok tables) :
      Move world footprint store { store with
        journalEntries := store.journalEntries ++ entries, projection := tables }
  | received (store : Store) (receipt : CommandReceipt)
      (hnew : store.selectCommandReceipt receipt.commandId = none)
      (hturn : ReceiptHolds store.projection receipt) :
      Move world footprint store { store with
        commandReceipts := store.commandReceipts ++ [receipt] }
  | delivered (store store' : Store) (hmove : DeliveryMove footprint store store') :
      Move world footprint store store'

/-- A chain of moves. -/
abbrev Moves (world : World) (footprint : Footprint) : Store → Store → Prop :=
  Relation.ReflTransGen (Move world footprint)

/-- The footprint that allows everything. -/
def Footprint.unrestricted : Footprint :=
  { closing := fun _ => True, produces := fun _ => True, leaving := fun _ _ => True
    acknowledges := fun _ _ => True }

theorem DeliveryMove.unrestricted {footprint : Footprint} {store store' : Store}
    (hmove : DeliveryMove footprint store store') :
    DeliveryMove Footprint.unrestricted store store' := by
  cases hmove with
  | signalled body key hid hkey => exact .signalled store body key hid hkey
  | ignored => exact .ignored store
  | transientDropped => exact .transientDropped store
  | pruned => exact .pruned store
  | consumerAdded consumerId kind now hnew => exact .consumerAdded store consumerId kind now hnew
  | consumerTouched consumerId now => exact .consumerTouched store consumerId now
  | acknowledged consumerId checkpoint now hcheckpoint =>
      exact .acknowledged store consumerId checkpoint now hcheckpoint trivial
  | consumersRemoved gone =>
      exact .consumersRemoved store gone fun _ _ _ => .inr fun _ => trivial
  | subscribed consumerId sessionId => exact .subscribed store consumerId sessionId
  | unsubscribed gone => exact .unsubscribed store gone fun _ _ _ => trivial

theorem Move.unrestricted {world : World} {footprint : Footprint} {store store' : Store}
    (hmove : Move world footprint store store') : Move world Footprint.unrestricted store store' := by
  cases hmove with
  | drew drawn => exact .drew store drawn
  | projected sessionId entry tables delivery hsubject hid hposition hlawful _ hproject hfresh
      hdeliver =>
      refine .projected store sessionId entry tables delivery hsubject hid hposition ?_ trivial
        hproject hfresh hdeliver
      revert hlawful
      cases entry.payload with
      | effectFailed operationId turnId error =>
          exact fun ⟨hactive, howned⟩ => ⟨hactive, howned.imp_right fun h => ⟨trivial, h.2⟩⟩
      | _ => exact id
  | aggregated entries tables hsubject hid hnodup hposition hlawful _ hproject =>
      exact .aggregated store entries tables hsubject hid hnodup hposition hlawful
        (fun _ _ => trivial) hproject
  | received receipt hnew hturn => exact .received store receipt hnew hturn
  | delivered _ hmove => exact .delivered store _ hmove.unrestricted

theorem Moves.unrestricted {world : World} {footprint : Footprint} {store store' : Store}
    (hmoves : Moves world footprint store store') :
    Moves world Footprint.unrestricted store store' :=
  Relation.ReflTransGen.mono (fun _ _ => Move.unrestricted) _ _ hmoves

theorem Moves.rolledBack {world : World} {footprint : Footprint} (before reached : Store) :
    Moves world footprint before (rollback before reached) :=
  .single (.drew before reached.drawn)

end Store

end Mews
