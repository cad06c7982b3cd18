import Mews.Store.Sessions

/-!
# Client event delivery

Runtime signals, subscriptions, polling, acknowledgement and pruning.  The rows
of `client_events` stand in sequence order, so reading them in table order is
reading them by sequence.
-/

namespace Mews

open Protocol Table

/-- Four times the maximum long poll, in nanoseconds. -/
def ephemeralConsumerLease : Nat := 120 * 1000000000

def runtimePayloadFromClient : ClientEventKind → Option RuntimeSignalPayload
  | .assistantDelta _ delta messageId => some (.assistantDelta delta messageId)
  | .reasoningDelta _ delta messageId => some (.reasoningDelta delta messageId)
  | .toolActivity _ activity => some (.toolActivity activity)
  | _ => none

def signalKind (turnId : TurnId) : RuntimeSignalPayload → ClientEventKind
  | .assistantDelta delta messageId => .assistantDelta turnId delta messageId
  | .reasoningDelta delta messageId => .reasoningDelta turnId delta messageId
  | .toolActivity activity => .toolActivity turnId activity

/-- The serialized length of a stored client event. -/
def ClientEventRow.bytes (world : World) (row : ClientEventRow) : Nat :=
  world.eventBytes row.body + (Nat.toDigits 10 row.sequence).length

namespace Store

/-- A key that an earlier event of the Session already carries. -/
def idempotencyKeyExists (store : Store) (sessionId : SessionId) (key : String) : Bool :=
  store.clientEvents.any fun row =>
    row.body.sessionId = sessionId ∧ row.idempotencyKey = some key

/-- `INSERT OR IGNORE`: a uniqueness conflict leaves the rows alone, and the
sequence it was about to use stays consumed. -/
def insertOrIgnoreClientEvent (body : ClientEventBody) (key : String) : Action Unit := do
  let store ← Tx.reads id
  if (∃ other ∈ store.clientEvents, other.body.id = body.id) ∨
      store.idempotencyKeyExists body.sessionId key then
    Tx.modify fun store => { store with clientEventSequence := store.clientEventSequence + 1 }
  else
    insertClientEvent body (.transient (some key))

variable (world : World)

def appendRuntimeSignalIn (signal : RuntimeSignal) (idempotencyKey : Option String) :
    Action Unit := do
  let body : ClientEventBody :=
    { id := signal.id, sessionId := signal.sessionId, channelOrigin := signal.channelOrigin
      kind := signalKind signal.turnId signal.payload, createdAt := signal.emittedAt }
  Tx.lift (validateClientEvent world body)
  match idempotencyKey with
  | some key => insertOrIgnoreClientEvent body key
  | none => insertClientEvent body (.transient none)

/-! ## Pruning -/

/-- The consumers subscribed to a Session. -/
def watchers (store : Store) (sessionId : SessionId) : List ConsumerRow :=
  store.clientConsumers.filter fun consumer =>
    store.clientSubscriptions.any fun subscription =>
      subscription.consumerId = consumer.id ∧ subscription.sessionId = sessionId

/-- Durable consumers define the replay floor; without one the others do. -/
def prunable (store : Store) (row : ClientEventRow) : Bool :=
  let watchers := store.watchers row.body.sessionId
  let durable := watchers.filter fun consumer => consumer.kind = .durable
  if row.transient then watchers.all fun consumer => row.sequence ≤ consumer.cursor
  else if durable ≠ [] then durable.all fun consumer => row.sequence ≤ consumer.cursor
  else watchers.all fun consumer => row.sequence ≤ consumer.cursor

/-- Deletes consumers together with their subscriptions. -/
def removeConsumers (store : Store) (gone : ConsumerRow → Bool) : Store :=
  { store with
    clientConsumers := store.clientConsumers.filter fun consumer => !gone consumer
    clientSubscriptions := store.clientSubscriptions.filter fun subscription =>
      !store.clientConsumers.any fun consumer =>
        consumer.id = subscription.consumerId && gone consumer }

def expired (now : DateTime) (consumer : ConsumerRow) : Bool :=
  consumer.kind = .ephemeral && consumer.lastSeenAt + ephemeralConsumerLease < now

def dropPrunable (store : Store) : Store :=
  { store with clientEvents := store.clientEvents.filter fun row => !store.prunable row }

def pruneClientEvents : Action Unit :=
  transaction do
    let now ← utcNow world
    Tx.modify fun store => store.removeConsumers (expired now)
    Tx.modify dropPrunable

/-! ## Runtime signals -/

/-- The channel of an active Turn of the Session. -/
def activeTurnOrigin (sessionId : SessionId) (turnId : TurnId) (tables : Projection) :
    Option (Option ChannelOrigin) :=
  (tables.turns.find? fun row => row.turn.id = turnId ∧ row.turn.sessionId = sessionId ∧
    row.turn.completedAt = none).map fun row => row.channelOrigin

def emitRuntimeSignalWithKey (sessionId : SessionId) (turnId : TurnId)
    (payload : RuntimeSignalPayload) (idempotencyKey : Option String) : Action Unit := do
  let emitted ← transaction do
    let exists' ← Tx.reads fun store =>
      idempotencyKey.any fun key => store.idempotencyKeyExists sessionId key
    if exists' then return false
    else
      let channelOrigin ← Tx.expect (← select (activeTurnOrigin sessionId turnId))
        (Projection.turnNotActive sessionId turnId)
      let id ← newId world
      let emittedAt ← utcNow world
      appendRuntimeSignalIn world ⟨id, sessionId, turnId, channelOrigin, emittedAt, payload⟩
        idempotencyKey
      return true
  -- A replay returns before the prune.
  if emitted then pruneClientEvents world else return ()

def emitRuntimeSignal (sessionId : SessionId) (turnId : TurnId)
    (payload : RuntimeSignalPayload) : Action Unit :=
  emitRuntimeSignalWithKey world sessionId turnId payload none

def appendRuntimeSignal (signal : RuntimeSignal) : Action Unit := do
  transaction (appendRuntimeSignalIn world signal none)
  pruneClientEvents world

/-- Commits an ACP observation together with its delivery event. -/
def appendAcpObservationWithClientEvent (sessionId : SessionId) (turnId : TurnId)
    (acpSessionId eventKey : Option String) (observation : AcpObservation)
    (event : ClientEventKind) : Action Unit := do
  match observation, runtimePayloadFromClient event with
  | .assistantDelta .., none =>
      invalidData "ACP delta must use a transient delivery kind"
  | .assistantDelta .., some payload =>
      emitRuntimeSignalWithKey world sessionId turnId payload eventKey
  | observation, transient =>
      transaction do
        recordAcpObservationTransaction world sessionId turnId acpSessionId eventKey observation
        match transient with
        | none => return ()
        | some payload =>
            let channelOrigin ← Tx.expect (← select (activeTurnOrigin sessionId turnId))
              queryReturnedNoRows
            let id ← newId world
            let emittedAt ← utcNow world
            appendRuntimeSignalIn world
              ⟨id, sessionId, turnId, channelOrigin, emittedAt, payload⟩ eventKey
      pruneClientEvents world

/-! ## Subscriptions -/

/-- A new consumer starts at the last event that exists. -/
def upsertConsumer (consumerId : ConsumerId) (kind : ConsumerKind) (now : DateTime) :
    Action Unit := do
  let store ← Tx.reads id
  match store.clientConsumers.find? fun consumer => consumer.id = consumerId with
  | none =>
      let cursor := (store.clientEvents.map (·.sequence)).foldr max 0
      Tx.modify fun store => { store with
        clientConsumers := store.clientConsumers ++
          [{ id := consumerId, cursor, kind, createdAt := now, lastSeenAt := now }] }
  | some consumer =>
      Tx.require (consumer.kind = kind)
        (.invalidData "an event consumer cannot change durability")
      Tx.modify fun store => { store with
        clientConsumers := updateWhere (fun consumer => consumer.id = consumerId)
          (fun consumer => { consumer with lastSeenAt := now }) store.clientConsumers }

def subscribeSession (consumerId : ConsumerId) (sessionId : SessionId) (kind : ConsumerKind) :
    Action Unit := do
  let _ ← session sessionId
  transaction do
    let now ← utcNow world
    upsertConsumer consumerId kind now
    Tx.modify fun store =>
      if store.clientSubscriptions.any fun subscription =>
          subscription.consumerId = consumerId ∧ subscription.sessionId = sessionId then store
      else { store with
        clientSubscriptions := store.clientSubscriptions ++ [{ consumerId, sessionId }] }

def deleteConsumer (consumerId : ConsumerId) : Action Unit := do
  Tx.modify fun store => store.removeConsumers fun consumer => consumer.id = consumerId
  pruneClientEvents world

def unsubscribeSession (consumerId : ConsumerId) (sessionId : SessionId) : Action Unit := do
  Tx.modify fun store => { store with
    clientSubscriptions := store.clientSubscriptions.filter fun subscription =>
      !(subscription.consumerId = consumerId && subscription.sessionId = sessionId) }
  pruneClientEvents world

/-! ## Polling -/

/-- The events after the cursor in the Sessions the consumer is subscribed to. -/
def pendingEvents (store : Store) (consumerId : ConsumerId) (cursor : Nat) :
    List ClientEventRow :=
  store.clientEvents.filter fun row =>
    cursor < row.sequence ∧ store.clientSubscriptions.any fun subscription =>
      subscription.consumerId = consumerId ∧ subscription.sessionId = row.body.sessionId

/-- Fills one page; `payloadBytes` is `none` until the page holds an event. -/
def eventPage (payloadBytes : Option Nat) : List ClientEventRow →
    Except StoreError (List ClientEventRow)
  | [] => .ok []
  | row :: rest => do
      let bytes := row.bytes world
      demand (bytes ≤ maxEventPagePayloadBytes)
        (.invalidData "stored client event exceeds the event page limit")
      match payloadBytes with
      | none => return row :: (← eventPage (some bytes) rest)
      | some total =>
          if maxEventPagePayloadBytes < total + bytes then return []
          else return row :: (← eventPage (some (total + bytes)) rest)

def touchConsumer (consumerId : ConsumerId) (cursor : Nat → Nat) (now : DateTime) (store : Store) :
    Store :=
  { store with
    clientConsumers := updateWhere (fun consumer => consumer.id = consumerId)
      (fun consumer => { consumer with cursor := cursor consumer.cursor, lastSeenAt := now })
      store.clientConsumers }

def consumerNotFound (consumerId : ConsumerId) : StoreError :=
  .notFound "event consumer" consumerId.asStr

def findConsumer (store : Store) (consumerId : ConsumerId) : Option ConsumerRow :=
  store.clientConsumers.find? fun consumer => consumer.id = consumerId

/-- `Store::client_events`. -/
def pollClientEvents (consumerId : ConsumerId) (limit : Nat) : Action EventBatch := do
  let now ← utcNow world
  let consumer ← Tx.expect (← Tx.reads fun store => store.findConsumer consumerId)
    (consumerNotFound consumerId)
  Tx.modify (touchConsumer consumerId id now)
  let store ← Tx.reads id
  let page ← Tx.lift (eventPage world none
    ((store.pendingEvents consumerId consumer.cursor).take limit))
  let checkpoint := (page.getLast?.map (·.sequence)).getD consumer.cursor
  return { events := page.map (·.event), checkpoint, advanced := consumer.cursor < checkpoint }

/-- The watermark survives pruning, unlike the largest stored sequence. -/
def acknowledgeEvents (consumerId : ConsumerId) (checkpoint : Nat) : Action Unit := do
  let watermark ← Tx.reads fun store => store.clientEventSequence
  Tx.require (checkpoint ≤ watermark) (.invalidData "event checkpoint is ahead of Hub")
  let now ← utcNow world
  let _ ← Tx.expect (← Tx.reads fun store => store.findConsumer consumerId)
    (consumerNotFound consumerId)
  Tx.modify (touchConsumer consumerId (max checkpoint) now)
  pruneClientEvents world

end Store

end Mews
