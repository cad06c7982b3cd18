import Mews.Core.Frames
import Mews.Store.TurnRows

/-!
# The receipts of Turns

Every receipt of an accepted Turn stands for the row of that Turn, in the order the two
tables have grown: an acceptance adds one row under its key together with its receipt, or
it changes no table, and no other command leaves the receipt of a Turn.
-/

namespace Mews

open Protocol Table Tx

def Protocol.CommandId.isTurn : CommandId → Bool
  | .turn .. => true
  | .operation .. => false

/-- The columns of a Turn that never change. -/
structure TurnLabel where
  id : TurnId
  sessionId : SessionId
  idempotencyKey : Option String
  channelOrigin : Option ChannelOrigin
  deriving DecidableEq, Repr

/-- The command of the request that the Turn was accepted for. -/
def TurnLabel.commandId (label : TurnLabel) : CommandId :=
  .turn label.sessionId (label.idempotencyKey.getD "")

def TurnRow.label (row : TurnRow) : TurnLabel where
  id := row.turn.id
  sessionId := row.turn.sessionId
  idempotencyKey := row.idempotencyKey
  channelOrigin := row.channelOrigin

namespace Projection

variable {world : World} {tables tables' : Projection} {sessionId : SessionId}
  {event : JournalEntry} {delivery : Option Delivery}

def turnLabels (tables : Projection) : List TurnLabel := tables.turns.map TurnRow.label

theorem mem_turnLabels {row : TurnRow} (hrow : row ∈ tables.turns) : row.label ∈ tables.turnLabels :=
  List.mem_map_of_mem hrow

theorem turnLabels_congr (hturns : tables'.turns = tables.turns) :
    tables'.turnLabels = tables.turnLabels := by
  rw [turnLabels, hturns, turnLabels]

/-- Only an accepted Turn adds a row, and rows keep their labels. -/
theorem SessionChange.turnLabels_eq
    (hchange : SessionChange world tables sessionId event tables' delivery)
    (hother : ∀ turnId agentRevision entryId content metadata source, event.payload ≠
      .turnAccepted turnId agentRevision entryId content metadata source) :
    tables'.turnLabels = tables.turnLabels := by
  cases hchange with
  | entryAppended _ _ _ _ _ _ _ _ hplaced => exact turnLabels_congr hplaced.turns_eq
  | turnAccepted _ _ _ _ _ _ _ _ hpayload => exact absurd hpayload (hother _ _ _ _ _ _)
  | turnStarted _ _ _ _ _ _ hplaced =>
      rw [turnLabels, hplaced.turns_eq]
      exact map_updateWhere fun _ => rfl
  | turnEnded _ _ _ _ _ _ _ _ _ hplaced =>
      rw [turnLabels, hplaced.turns_eq]
      exact map_updateWhere fun _ => rfl
  | _ => rfl

end Projection

namespace Store

open Projection

def turnReceipts (store : Store) : List CommandReceipt :=
  store.commandReceipts.filter fun receipt => receipt.commandId.isTurn

/-! ## What leaves no receipt of a Turn -/

section Frames

variable {world : World} {sessionId : SessionId} {turnId : TurnId} {A : Type}

theorem frames_transaction {body : Action A} (hbody : Frames turnReceipts body) :
    Frames turnReceipts (transaction body) :=
  Frames.atomically (fun _ _ => rfl) hbody

theorem frames_newId {marker : String} :
    Frames turnReceipts (newId world : Action (TaggedId marker)) := fun _ => rfl

theorem frames_utcNow : Frames turnReceipts (utcNow world) := fun _ => rfl

theorem frames_newSecret : Frames turnReceipts (newSecret world) := fun _ => rfl

theorem frames_select (query : Projection → A) : Frames turnReceipts (select query) :=
  frames_reads _

theorem frames_invalidData (message : String) :
    Frames turnReceipts (invalidData message : Action A) :=
  frames_fail _

theorem frames_session : Frames turnReceipts (session sessionId) :=
  (frames_select _).bind fun _ => frames_expect _ _

theorem frames_turn : Frames turnReceipts (Store.turn turnId) :=
  (frames_select _).bind fun _ => frames_lift _

theorem frames_validateActiveTurn : Frames turnReceipts (validateActiveTurn sessionId turnId) :=
  (frames_select _).bind fun _ => frames_require _ _

theorem frames_turnActor {kind : EventActorKind} :
    Frames turnReceipts (turnActor sessionId turnId kind) :=
  (frames_select _).bind fun _ => frames_lift _

theorem frames_selectEntry {entryId : MessageId} :
    Frames turnReceipts (selectEntry sessionId entryId) :=
  (frames_select _).bind fun _ => frames_lift _

theorem frames_insertClientEvent {body : ClientEventBody} {origin : ClientEventOrigin} :
    Frames turnReceipts (insertClientEvent body origin) := by
  refine (frames_reads _).bind fun _ => (frames_require _ _).bind fun _ =>
    (frames_require _ _).bind fun _ => (frames_require _ _).bind fun _ => ?_
  cases origin with
  | transient key => exact frames_modify fun _ => rfl
  | durable entryId journalEntryId position =>
      exact (frames_require _ _).bind fun _ => (frames_require _ _).bind fun _ =>
        frames_modify fun _ => rfl

theorem frames_applySessionJournalEntry {event : JournalEntry} :
    Frames turnReceipts (applySessionJournalEntry world event) := by
  refine (frames_reads _).bind fun _ => (frames_lift _).bind fun projected =>
    Frames.bind (frames_modify fun _ => rfl) fun _ => ?_
  cases projected.2 with
  | none => exact frames_pure _
  | some delivery =>
      exact (frames_lift _).bind fun _ => (frames_select _).bind fun _ =>
        (frames_lift _).bind fun _ => frames_insertClientEvent

theorem frames_insertEntry {commandId : Option CommandId} {subject : JournalSubject}
    {recordedAt : DateTime} {entry : NewJournalEntry} :
    Frames turnReceipts (insertEntry commandId subject recordedAt entry) :=
  (frames_reads _).bind fun _ => (frames_require _ _).bind fun _ =>
    Frames.bind (frames_modify fun _ => rfl) fun _ => (frames_lift _).bind fun _ => frames_pure _

theorem frames_appendSessionEventCorrelated {actor : EventActor} {payload : JournalEvent}
    {correlationId : Option String} :
    Frames turnReceipts
      (appendSessionEventCorrelated world sessionId actor payload correlationId) := by
  have hrecorded : Frames turnReceipts
      (recordSessionEventCorrelated world sessionId actor payload correlationId) :=
    frames_newId.bind fun _ => (frames_lift _).bind fun _ => frames_utcNow.bind fun _ =>
      frames_insertEntry
  exact hrecorded.bind fun _ => frames_applySessionJournalEntry.bind fun _ => frames_pure _

theorem frames_appendSessionEvent {actor : EventActor} {payload : JournalEvent} :
    Frames turnReceipts (appendSessionEvent world sessionId actor payload) :=
  frames_appendSessionEventCorrelated

/-- A call that appends one event and forgets its entry. -/
theorem frames_record {actor : EventActor} {payload : JournalEvent} :
    Frames turnReceipts (do let _ ← appendSessionEvent world sessionId actor payload) :=
  frames_appendSessionEvent.bind fun _ => frames_pure _

/-! ### Effects and observations -/

theorem frames_scheduleEffectIn {effect : EffectRequest} :
    Frames turnReceipts (scheduleEffectIn world sessionId turnId effect) :=
  frames_newId.bind fun _ => frames_turnActor.bind fun _ =>
    frames_appendSessionEvent.bind fun _ => frames_pure _

theorem frames_markEffectStartedIn {operationId : OperationId} :
    Frames turnReceipts (markEffectStartedIn world sessionId turnId operationId) :=
  (frames_select _).bind fun _ => (frames_require _ _).bind fun _ =>
    frames_turnActor.bind fun _ => frames_record

theorem frames_finishEffectIn {operationId : OperationId} {outcome : EffectOutcome} :
    Frames turnReceipts (finishEffectIn world sessionId turnId operationId outcome) :=
  (frames_select _).bind fun _ => (frames_require _ _).bind fun _ =>
    frames_turnActor.bind fun _ => frames_record

theorem frames_startEffect {effect : EffectRequest} :
    Frames turnReceipts (startEffect world sessionId turnId effect) :=
  frames_transaction (frames_validateActiveTurn.bind fun _ => frames_scheduleEffectIn.bind fun _ =>
    frames_markEffectStartedIn.bind fun _ => frames_pure _)

theorem frames_decideAcpBinding {input : AcpBindingInput} :
    Frames turnReceipts (decideAcpBinding world sessionId input) := by
  refine (frames_require _ _).bind fun _ => (frames_select _).bind fun existing =>
    frames_utcNow.bind fun _ => ?_
  cases existing <;> cases input.transition
  all_goals first
    | exact frames_pure _
    | exact frames_invalidData _
    | exact (frames_require _ _).bind fun _ => frames_pure _

theorem frames_recordAcpObservation {acpSessionId eventKey : Option String}
    {observation : AcpObservation} :
    Frames turnReceipts (recordAcpObservationTransaction world sessionId turnId acpSessionId
      eventKey observation) :=
  (frames_select _).bind fun _ => .ite (frames_pure _) (frames_newId.bind fun _ =>
    frames_appendSessionEventCorrelated.bind fun _ => frames_pure _)

theorem frames_appendHarnessObservationIn {actor : EventActor}
    {observation : HarnessObservationInput} :
    Frames turnReceipts
      (appendHarnessObservationIn world sessionId turnId actor observation) :=
  (frames_select _).bind fun _ => .ite (frames_pure _) (frames_newId.bind fun _ =>
    frames_appendSessionEventCorrelated.bind fun _ => frames_pure _)

theorem frames_appendTurnEntry {kind : EventActorKind} {event : MessageId → JournalEvent} :
    Frames turnReceipts (appendTurnEntry world sessionId turnId kind event) :=
  frames_newId.bind fun _ => frames_turnActor.bind fun _ =>
    frames_appendSessionEvent.bind fun _ => frames_selectEntry

theorem frames_requireLeaf {expectedLeaf : Option MessageId} :
    Frames turnReceipts (requireLeaf sessionId expectedLeaf) :=
  frames_session.bind fun _ => frames_require _ _

theorem frames_appendMessageChecked {expectedLeaf : Option MessageId} {role : MessageRole}
    {content : MessageContent} {metadata : Value} {source : MessageSource} :
    Frames turnReceipts (appendMessageChecked world sessionId expectedLeaf role content metadata
      source) :=
  (frames_require _ _).bind fun _ => (frames_lift _).bind fun _ => frames_transaction
    (frames_requireLeaf.bind fun _ => frames_newId.bind fun _ =>
      frames_appendSessionEvent.bind fun _ => frames_selectEntry.bind fun _ => frames_lift _)

/-! ### The end of a Turn -/

theorem frames_recordToolResult {result : ToolResult} :
    Frames turnReceipts (recordToolResult world sessionId turnId result) :=
  frames_newId.bind fun _ => frames_record

theorem frames_closeOpenEffects : Frames turnReceipts (closeOpenEffects world sessionId turnId) := by
  refine (frames_select _).bind fun _ => frames_each fun row => ?_
  refine frames_appendSessionEvent.bind fun _ => ?_
  split
  · exact frames_recordToolResult
  · exact frames_pure _

theorem frames_closeOrphanToolCalls :
    Frames turnReceipts (closeOrphanToolCalls world sessionId turnId) := by
  refine (frames_select _).bind fun _ => frames_each fun call => .ite (frames_pure _) ?_
  split
  · exact frames_recordToolResult
  · exact frames_recordToolResult

theorem frames_finishTurn {status : TurnStatus} {error stopReason : Option String} :
    Frames turnReceipts (finishTurnWithStopReason world turnId status error stopReason) := by
  refine (frames_expect _ _).bind fun _ => frames_transaction ((frames_select _).bind fun _ => ?_)
  split
  · exact frames_turn.bind fun _ => frames_require _ _
  · refine Frames.bind (frames_require _ _) fun _ => ?_
    split
    · exact frames_closeOpenEffects.bind fun _ => frames_closeOrphanToolCalls.bind fun _ =>
        frames_record
    · exact frames_closeOrphanToolCalls.bind fun _ => frames_record

theorem frames_recordTurnHarness {harness definitionHash : String} {version : Option String} :
    Frames turnReceipts (recordTurnHarness world turnId harness definitionHash version) := by
  refine (frames_require _ _).bind fun _ => frames_transaction ((frames_select _).bind fun _ =>
    (frames_expect _ _).bind fun _ => ?_)
  split
  · exact frames_require _ _
  · exact frames_record

theorem frames_recoverInterruptedWork : Frames turnReceipts (recoverInterruptedWork world) :=
  frames_transaction (Frames.bind (frames_modify fun _ => rfl) fun _ => (frames_select _).bind fun _ =>
    frames_each fun _ => frames_closeOpenEffects.bind fun _ =>
      frames_closeOrphanToolCalls.bind fun _ => frames_record)

/-! ### Delivery -/

theorem frames_pruneClientEvents : Frames turnReceipts (pruneClientEvents world) :=
  frames_transaction (frames_utcNow.bind fun _ => Frames.bind (frames_modify fun _ => rfl) fun _ =>
    frames_modify fun _ => rfl)

theorem frames_appendRuntimeSignalIn {signal : RuntimeSignal} {key : Option String} :
    Frames turnReceipts (appendRuntimeSignalIn world signal key) := by
  refine (frames_lift _).bind fun _ => ?_
  cases key with
  | none => exact frames_insertClientEvent
  | some key =>
      exact (frames_reads _).bind fun _ => .ite (frames_modify fun _ => rfl)
        frames_insertClientEvent

theorem frames_emitRuntimeSignal {payload : RuntimeSignalPayload} {key : Option String} :
    Frames turnReceipts (emitRuntimeSignalWithKey world sessionId turnId payload key) :=
  Frames.bind (frames_transaction ((frames_reads _).bind fun _ => .ite (frames_pure _)
      ((frames_select _).bind fun _ => (frames_expect _ _).bind fun _ => frames_newId.bind fun _ =>
        frames_utcNow.bind fun _ => frames_appendRuntimeSignalIn.bind fun _ => frames_pure _)))
    fun _ => .ite frames_pruneClientEvents (frames_pure _)

theorem frames_appendAcpObservationWithClientEvent {acpSessionId eventKey : Option String}
    {observation : AcpObservation} {event : ClientEventKind} :
    Frames turnReceipts (appendAcpObservationWithClientEvent world sessionId turnId acpSessionId
      eventKey observation event) := by
  unfold appendAcpObservationWithClientEvent
  split
  · exact frames_invalidData _
  · exact frames_emitRuntimeSignal
  · refine Frames.bind (frames_transaction (frames_recordAcpObservation.bind fun _ => ?_))
      fun _ => frames_pruneClientEvents
    split
    · exact frames_pure _
    · exact (frames_select _).bind fun _ => (frames_expect _ _).bind fun _ =>
        frames_newId.bind fun _ => frames_utcNow.bind fun _ => frames_appendRuntimeSignalIn

theorem frames_subscribeSession {consumerId : ConsumerId} {kind : ConsumerKind} :
    Frames turnReceipts (subscribeSession world consumerId sessionId kind) := by
  refine frames_session.bind fun _ => frames_transaction (frames_utcNow.bind fun _ => ?_)
  refine Frames.bind ((frames_reads _).bind fun _ => ?_) fun _ => frames_modify fun store => ?_
  · split
    · exact frames_modify fun _ => rfl
    · exact (frames_require _ _).bind fun _ => frames_modify fun _ => rfl
  · split <;> rfl

theorem frames_pollClientEvents {consumerId : ConsumerId} {limit : ℕ} :
    Frames turnReceipts (pollClientEvents world consumerId limit) :=
  frames_utcNow.bind fun _ => (frames_reads _).bind fun _ => (frames_expect _ _).bind fun _ =>
    Frames.bind (frames_modify fun _ => rfl) fun _ => (frames_reads _).bind fun _ =>
      (frames_lift _).bind fun _ => frames_pure _

theorem frames_acknowledgeEvents {consumerId : ConsumerId} {checkpoint : ℕ} :
    Frames turnReceipts (acknowledgeEvents world consumerId checkpoint) :=
  (frames_reads _).bind fun _ => (frames_require _ _).bind fun _ => frames_utcNow.bind fun _ =>
    (frames_reads _).bind fun _ => (frames_expect _ _).bind fun _ =>
      Frames.bind (frames_modify fun _ => rfl) fun _ => frames_pruneClientEvents

/-! ### Commands with receipts of their own -/

theorem frames_applyEvents {project : Projection → JournalEntry → Except StoreError Projection}
    {events : List JournalEntry} : Frames turnReceipts (applyEvents project events) :=
  frames_each fun _ => (frames_select _).bind fun _ => (frames_lift _).bind fun _ =>
    frames_modify fun _ => rfl

theorem frames_insertEntries {commandId : CommandId} {recordedAt : DateTime}
    {items : List (JournalSubject × NewJournalEntry)} :
    Frames turnReceipts (insertEntries commandId recordedAt items) := by
  induction items with
  | nil => exact frames_pure _
  | cons item items ih => exact frames_insertEntry.bind fun _ => ih.bind fun _ => frames_pure _

theorem frames_appendJournalEntriesIn {append : JournalAppend}
    {mutate : List JournalEntry → Action Unit} (hcommand : append.commandId.isTurn = false)
    (hmutate : ∀ events, Frames turnReceipts (mutate events)) :
    Frames turnReceipts (appendJournalEntriesIn world append mutate) := by
  refine (frames_lift _).bind fun _ => (frames_reads _).bind fun found => ?_
  cases found with
  | some receipt => exact (frames_require _ _).bind fun _ => frames_pure _
  | none =>
      refine frames_utcNow.bind fun _ => frames_insertEntries.bind fun committed =>
        (hmutate committed).bind fun _ => Frames.bind (frames_modify fun store => ?_) fun _ =>
          frames_pure _
      simp only [turnReceipts, JournalAppend.receipt, List.filter_append, hcommand,
        List.filter_cons, Bool.false_eq_true, if_false, List.filter_nil, List.append_nil]

theorem frames_transactCommand {T : Type} [CommandOutput T] {context : CommandContext}
    {operation : String} {requestHash : Digest} {decide : Action (T × List JournalSubjectAppend)}
    {mutate : List JournalEntry → Action Unit} (hdecide : Frames turnReceipts decide)
    (hmutate : ∀ events, Frames turnReceipts (mutate events)) :
    Frames turnReceipts (transactCommand world context operation requestHash decide mutate) := by
  refine frames_transaction ((frames_reads _).bind fun found => ?_)
  cases found with
  | some receipt =>
      exact (frames_require _ _).bind fun _ => (frames_expect _ _).bind fun _ => frames_pure _
  | none =>
      exact hdecide.bind fun _ => (frames_appendJournalEntriesIn rfl hmutate).bind fun _ =>
        frames_pure _

theorem frames_singleSubject {subject : JournalSubject} {actor : EventActor}
    {payload : JournalEvent} : Frames turnReceipts (singleSubject world subject actor payload) :=
  Frames.bind (frames_newId.bind fun _ => frames_pure _) fun _ => frames_pure _

theorem frames_requiredInstallation : Frames turnReceipts requiredInstallation :=
  (frames_select _).bind fun _ => frames_expect _ _

theorem frames_selectAgentBySlug {slug : String} : Frames turnReceipts (selectAgentBySlug slug) :=
  (frames_select _).bind fun _ => frames_expect _ _

theorem frames_renameAgent {context : CommandContext} {command slug newSlug : String} :
    Frames turnReceipts (renameAgentWithCommand world context command slug newSlug) :=
  (frames_lift _).bind fun _ => (frames_transactCommand (frames_selectAgentBySlug.bind fun _ =>
    frames_singleSubject.bind fun _ => frames_pure _) fun _ => frames_applyEvents).bind fun _ =>
      frames_pure _

theorem frames_appendInstallationEvent {context : CommandContext} {command : String}
    {request : CommandRequest} {payload : JournalEvent} :
    Frames turnReceipts (appendInstallationEvent world context command request payload) :=
  frames_requiredInstallation.bind fun _ => frames_singleSubject.bind fun _ =>
    Frames.bind (frames_transaction (frames_appendJournalEntriesIn rfl fun _ => frames_applyEvents))
      fun _ => frames_pure _

theorem frames_setProviderDefaults {context : CommandContext} {command : String}
    {request : CommandRequest} {change : ProviderDefaults → ProviderDefaults} :
    Frames turnReceipts (setProviderDefaults world context command request change) :=
  (frames_transactCommand (frames_requiredInstallation.bind fun _ => (frames_select _).bind fun _ =>
    frames_singleSubject.bind fun _ => frames_pure _) fun _ => frames_applyEvents).bind fun _ =>
      frames_pure _

theorem frames_initializeHub {context : CommandContext}
    {hostName hostPublicKey hostNoisePublicKey installationPublicKey : String} :
    Frames turnReceipts (initializeHub world context hostName hostPublicKey hostNoisePublicKey
      installationPublicKey) := by
  refine (frames_lift _).bind fun _ => (frames_select _).bind fun found => ?_
  cases found with
  | some existing => exact frames_pure _
  | none =>
      exact frames_utcNow.bind fun _ => frames_newId.bind fun _ => frames_newId.bind fun _ =>
        frames_singleSubject.bind fun _ => frames_singleSubject.bind fun _ =>
          Frames.bind (frames_transaction (frames_appendJournalEntriesIn rfl fun _ =>
            frames_applyEvents.bind fun _ => frames_applyEvents)) fun _ => frames_pure _

theorem frames_discard {action : Action A} (haction : Frames turnReceipts action) :
    Frames turnReceipts (discard action) :=
  haction.bind fun _ => frames_pure _

theorem frames_exec {op : StoreOp} (hother : op.accepts = false) :
    Frames turnReceipts (exec world op) := by
  cases op with
  | scheduleEffect =>
      exact frames_discard (frames_transaction (frames_validateActiveTurn.bind fun _ =>
        frames_scheduleEffectIn))
  | markEffectStarted =>
      exact frames_transaction (frames_validateActiveTurn.bind fun _ => frames_markEffectStartedIn)
  | startEffect | startToolEffect => exact frames_discard frames_startEffect
  | finishEffect =>
      exact frames_transaction (frames_validateActiveTurn.bind fun _ => frames_finishEffectIn)
  | acceptTurnIdempotent => cases hother
  | bindAcpSession =>
      exact frames_discard (Frames.bind (frames_transaction (frames_decideAcpBinding.bind fun _ =>
        frames_record)) fun _ => (frames_select _).bind fun _ => frames_expect _ _)
  | bindAcpSessionWithObservations =>
      exact frames_transaction ((frames_select _).bind fun _ => .ite (frames_pure _)
        (frames_decideAcpBinding.bind fun _ => frames_appendSessionEvent.bind fun _ =>
          frames_recordAcpObservation.bind fun _ =>
            .ite frames_recordAcpObservation (frames_pure _)))
  | markAcpContextDispatchedWithObservation =>
      exact frames_transaction ((frames_select _).bind fun _ => .ite (frames_pure _)
        ((frames_select _).bind fun _ => (frames_expect _ _).bind fun _ =>
          (frames_require _ _).bind fun _ => frames_appendSessionEvent.bind fun _ =>
            frames_recordAcpObservation))
  | createSession =>
      exact frames_discard ((frames_lift _).bind fun _ => frames_transaction
        ((frames_select _).bind fun _ => (frames_require _ _).bind fun _ => frames_newId.bind fun _ =>
          frames_utcNow.bind fun _ => frames_appendSessionEvent.bind fun _ => frames_pure _))
  | setSessionModel =>
      exact frames_discard ((frames_require _ _).bind fun _ => frames_session.bind fun _ =>
        Frames.bind (frames_transaction frames_record) fun _ => frames_session)
  | appendMessage =>
      exact frames_discard (frames_session.bind fun _ => frames_appendMessageChecked)
  | appendMessageChecked => exact frames_discard frames_appendMessageChecked
  | appendAssistantResponseWithToolCalls =>
      exact frames_discard (Frames.bind (frames_transaction (frames_validateActiveTurn.bind fun _ =>
        frames_turnActor.bind fun _ => frames_newId.bind fun _ => frames_appendSessionEvent.bind fun _ =>
          frames_selectEntry.bind fun _ => Frames.bind (frames_each fun _ => frames_newId.bind fun _ =>
            frames_record) fun _ => frames_pure _)) fun _ => frames_pruneClientEvents.bind fun _ =>
              frames_pure _)
  | appendToolResult =>
      exact frames_discard (frames_transaction (frames_validateActiveTurn.bind fun _ =>
        (frames_select _).bind fun _ => (frames_require _ _).bind fun _ => frames_appendTurnEntry))
  | completeToolExecution =>
      exact frames_transaction (frames_validateActiveTurn.bind fun _ => (frames_select _).bind fun _ =>
        (frames_expect _ _).bind fun _ => frames_turnActor.bind fun _ => frames_record)
  | appendToolRequested =>
      exact frames_discard (frames_transaction (frames_validateActiveTurn.bind fun _ =>
        frames_appendTurnEntry))
  | appendReasoning =>
      exact frames_transaction (frames_validateActiveTurn.bind fun _ => (frames_select _).bind fun _ =>
        .ite (frames_pure _) (frames_newId.bind fun _ => frames_turnActor.bind fun _ =>
          frames_appendSessionEventCorrelated.bind fun _ => frames_pure _))
  | appendHarnessObservations =>
      exact (frames_require _ _).bind fun _ => frames_transaction (frames_validateActiveTurn.bind fun _ =>
        frames_turnActor.bind fun _ => frames_each fun _ => frames_appendHarnessObservationIn)
  | appendContextCompaction =>
      exact frames_discard ((frames_require _ _).bind fun _ => (frames_select _).bind fun _ =>
        (frames_require _ _).bind fun _ => frames_transaction (frames_newId.bind fun _ =>
          frames_appendSessionEvent.bind fun _ => frames_selectEntry))
  | appendAcpObservation => exact frames_transaction frames_recordAcpObservation
  | setSessionLeafChecked =>
      exact frames_discard (Frames.bind (frames_transaction (frames_requireLeaf.bind fun _ =>
        (frames_select _).bind fun _ => (frames_require _ _).bind fun _ => frames_record))
          fun _ => frames_session)
  | finishTurnWithStopReason => exact frames_finishTurn
  | recordTurnHarness => exact frames_recordTurnHarness
  | recoverInterruptedWork => exact frames_recoverInterruptedWork
  | emitRuntimeSignal => exact frames_emitRuntimeSignal
  | appendRuntimeSignal =>
      exact Frames.bind (frames_transaction frames_appendRuntimeSignalIn)
        fun _ => frames_pruneClientEvents
  | appendAcpObservationWithClientEvent => exact frames_appendAcpObservationWithClientEvent
  | subscribeSession => exact frames_subscribeSession
  | deleteConsumer | unsubscribeSession =>
      exact Frames.bind (frames_modify fun _ => rfl) fun _ => frames_pruneClientEvents
  | clientEvents => exact frames_discard frames_pollClientEvents
  | acknowledgeEvents => exact frames_acknowledgeEvents
  | pruneClientEvents => exact frames_pruneClientEvents
  | createAgent =>
      exact frames_discard ((frames_lift _).bind fun _ => (frames_lift _).bind fun _ =>
        (frames_transactCommand (frames_utcNow.bind fun _ => frames_newId.bind fun _ =>
          frames_singleSubject.bind fun _ => frames_pure _) fun _ => frames_applyEvents).bind
            fun _ => frames_pure _)
  | renameAgent | rollbackAgentRename => exact frames_discard frames_renameAgent
  | archiveAgent =>
      exact (frames_transactCommand (frames_selectAgentBySlug.bind fun _ =>
        frames_singleSubject.bind fun _ => frames_pure _) fun _ => frames_applyEvents).bind
          fun _ => frames_pure _
  | updateAgent =>
      exact frames_discard ((frames_lift _).bind fun _ =>
        (frames_transactCommand ((frames_select _).bind fun _ => (frames_expect _ _).bind fun _ =>
          (frames_require _ _).bind fun _ => frames_utcNow.bind fun _ => frames_singleSubject.bind fun _ =>
            frames_pure _) fun _ => frames_applyEvents).bind fun _ => frames_pure _)
  | revokeHost =>
      exact (frames_transactCommand (frames_requiredInstallation.bind fun _ =>
        (frames_require _ _).bind fun _ => (frames_select _).bind fun _ =>
          (frames_require _ _).bind fun _ => frames_singleSubject.bind fun _ => frames_pure _)
            fun _ => frames_applyEvents).bind fun _ => frames_pure _
  | createInvitation =>
      exact frames_discard (frames_newId.bind fun _ => frames_utcNow.bind fun _ =>
        (frames_require _ _).bind fun _ => frames_newId.bind fun _ => frames_newSecret.bind fun _ =>
          frames_requiredInstallation.bind fun _ => frames_singleSubject.bind fun _ =>
            Frames.bind (frames_transaction (frames_appendJournalEntriesIn rfl fun _ =>
              frames_applyEvents)) fun _ => frames_pure _)
  | consumeInvitation =>
      exact frames_discard ((frames_lift _).bind fun _ =>
        (frames_transactCommand ((frames_select _).bind fun _ => (frames_expect _ _).bind fun _ =>
          frames_utcNow.bind fun _ => (frames_require _ _).bind fun _ => frames_newId.bind fun _ =>
            frames_utcNow.bind fun _ => frames_requiredInstallation.bind fun _ =>
              frames_singleSubject.bind fun _ => frames_singleSubject.bind fun _ => frames_pure _)
                fun _ => frames_applyEvents).bind fun _ => frames_pure _)
  | initializeHub => exact frames_discard frames_initializeHub
  | setRelayUrl => exact frames_requiredInstallation.bind fun _ => frames_appendInstallationEvent
  | setInstallationRelayUrl => exact frames_appendInstallationEvent
  | setDefaultModel | setDefaultReasoning => exact frames_setProviderDefaults
  | moveHub =>
      exact frames_discard ((frames_transactCommand ((frames_select _).bind fun _ =>
        (frames_require _ _).bind fun _ => frames_requiredInstallation.bind fun _ =>
          (frames_require _ _).bind fun _ => frames_singleSubject.bind fun _ => frames_pure _)
            fun _ => frames_applyEvents).bind fun _ => frames_pure _)

theorem step_turnReceipts {store : Store} {op : StoreOp} (hother : op.accepts = false) :
    (step world store op).turnReceipts = store.turnReceipts :=
  frames_exec hother store

end Frames

/-! ## What an acceptance leaves -/

section Admissions

variable {world : World} {store store' : Store} {request : TurnRequest}
  {resolved : MessageContent}

theorem Move.turnLabels_eq {footprint : Footprint} (hmove : Move world footprint store store')
    (hother : ∀ turnId agentRevision entryId content metadata source, ¬footprint.produces
      (.turnAccepted turnId agentRevision entryId content metadata source)) :
    store'.projection.turnLabels = store.projection.turnLabels := by
  rcases hmove.session_tables with hsame | ⟨_, _, _, -, -, -, hproduces, hchange⟩
  · exact turnLabels_congr hsame.turns_eq
  · apply hchange.turnLabels_eq
    intro turnId agentRevision entryId content metadata source hpayload
    rw [hpayload] at hproduces
    exact hother _ _ _ _ _ _ hproduces

theorem Moves.turnLabels_eq {footprint : Footprint} (hmoves : Moves world footprint store store')
    (hother : ∀ turnId agentRevision entryId content metadata source, ¬footprint.produces
      (.turnAccepted turnId agentRevision entryId content metadata source)) :
    store'.projection.turnLabels = store.projection.turnLabels := by
  induction hmoves with
  | refl => rfl
  | tail _ hmove ih => exact (hmove.turnLabels_eq hother).trans ih

/-- The delivery tables have not been touched. -/
structure SameDeliveries (store store' : Store) : Prop where
  events : store'.clientEvents = store.clientEvents
  sequence : store'.clientEventSequence = store.clientEventSequence
  consumers : store'.clientConsumers = store.clientConsumers
  subscriptions : store'.clientSubscriptions = store.clientSubscriptions

/-- A new Turn with its receipt. -/
structure Admitted (store : Store) (request : TurnRequest) (turn : Turn) (store' : Store) : Prop where
  fresh : store.selectCommandReceipt request.commandId = none
  running : turn.status = .running ∧ turn.completedAt = none
  turns : ∃ row, row.turn = turn ∧
    row.label = ⟨turn.id, request.sessionId, some request.key, request.source.channelOrigin⟩ ∧
    store'.projection.turns = store.projection.turns ++ [row]
  journal : ∃ entry, store'.journalEntries = store.journalEntries ++ [entry] ∧
    ∃ agentRevision entryId content,
      entry.payload = .turnAccepted turn.id agentRevision entryId content request.metadata
        request.source
  receipts : ∃ receipt entryId, receipt.commandId = request.commandId ∧
    receipt.result = .turn turn.id entryId ∧
    store'.commandReceipts = store.commandReceipts ++ [receipt]
  deliveries : SameDeliveries store store'

theorem Inserted.of_turnAppend_correlation {sessionId : SessionId} {key : String}
    {requestContent resolvedContent : MessageContent} {metadata : Value} {source : MessageSource}
    {agentRevision : Nat} {turnId : TurnId} {entryId : MessageId} {eventId : EventId}
    {event : JournalEntry}
    (hinserted : Inserted store (turnAppend world sessionId key requestContent resolvedContent
      metadata source agentRevision turnId entryId eventId).items [event]) :
    event.correlationId = some key := by
  have hcorrelation := hinserted.correlations
  simp only [turnAppend, JournalAppend.items, List.flatMap_cons, List.flatMap_nil, List.map_cons,
    List.map_nil, List.append_nil, List.cons.injEq, and_true] at hcorrelation
  exact hcorrelation

/-- Without a receipt an acceptance admits the Turn that its receipt names. -/
theorem ensures_acceptTurnIn_admitted
    (hnone : store.selectCommandReceipt request.commandId = none) :
    ensures (acceptTurnIn world request.sessionId request.key request.content resolved
        request.metadata request.source) store fun outcome store' =>
      ∃ turn entryId, outcome.receipt.result = .turn turn.id entryId ∧
        Admitted store request turn store' := by
  simp only [acceptTurnIn, ensures_bind, ensures_select, ensures_expect, ensures_newId]
  intro agentRevision _
  refine ensures_appendJournalEntriesIn ?_ ?_
  · intro receipt hreceipt _
    have hfound : store.selectCommandReceipt request.commandId = some receipt := hreceipt
    rw [hnone] at hfound
    cases hfound
  · intro _ committed hinserted
    obtain ⟨event, rfl, hpayload, hsubject, -⟩ := hinserted.of_turnAppend
    have hcorrelation := hinserted.of_turnAppend_correlation
    simp only [each, ensures_andThen, ensures_ret]
    refine ensures_mono (ensures_applySessionJournalEntry hsubject) ?_
    rintro _ _ ⟨tables, delivery, hproject, -, -, rfl⟩
    obtain ⟨placed, entry, hplaced, -, rfl, rfl⟩ :=
      (projectSession_change hsubject hproject).of_turnAccepted hpayload
    let row := acceptedTurn event request.sessionId ⟨world.uuid store.drawn⟩ agentRevision
      request.source
    have hlabel : row.label =
        ⟨row.turn.id, request.sessionId, some request.key, request.source.channelOrigin⟩ := by
      rw [← hcorrelation]
      rfl
    have hturns : placed.turns ++ [row] = store.projection.turns ++ [row] := by
      rw [hplaced.turns_eq]
    refine ⟨row.turn, ⟨world.uuid (store.drawn + 1)⟩, rfl, ?_⟩
    exact
      { fresh := hnone
        running := ⟨rfl, rfl⟩
        turns := ⟨row, rfl, hlabel, hturns⟩
        journal := ⟨event, rfl, _, _, _, hpayload⟩
        receipts := ⟨_, _, rfl, rfl, rfl⟩
        deliveries := ⟨rfl, rfl, rfl, rfl⟩ }

/-- An acceptance returns the Turn of an earlier one and changes no table, or it admits
the Turn it returns. -/
theorem Retryable.ensures_accept_cases (hretryable : store.Retryable) :
    ensures (request.accept world resolved) store fun outcome store' =>
      (∃ receipt row, store.selectCommandReceipt request.commandId = some receipt ∧
        outcome.1 = row.turn ∧
        Loads store.projection request.sessionId receipt.result row outcome.2.1 ∧
        store' = rollback store store') ∨
      Admitted store request outcome.1 store' := by
  cases hfound : store.selectCommandReceipt request.commandId with
  | none =>
      simp only [TurnRequest.accept, acceptTurnIdempotent, ensures_bind, ensures_lift,
        ensures_transaction, ensures_pure]
      intro _ _ _ _ outcome store' hrun
      obtain ⟨turn, entryId, hresult, hadmitted⟩ := ensures_acceptTurnIn_admitted hfound _ _ hrun
      obtain ⟨-, -, -, -, row, message, hloads, hload⟩ :=
        hretryable.acceptTurnIn_loads outcome store' hrun
      refine hload.ensures.mpr (.inr ?_)
      obtain ⟨added, rfl, -, hturns⟩ := hadmitted.turns
      have hmem : added ∈ store'.projection.turns := by
        rw [hturns]
        exact List.mem_append_right _ List.mem_cons_self
      obtain ⟨entry, -, hentry, -⟩ := hloads.entry
      rw [hresult, CommandResult.turn.injEq] at hentry
      have hkeyed : store'.projection.Keyed :=
        (hretryable.acceptTurnIn_loads outcome store' hrun).1.keyed
      obtain rfl := hkeyed.turns.eq_of_mem hmem hloads.turn hentry.1
      exact hadmitted
  | some receipt =>
      intro outcome store' hrun
      obtain ⟨row, message, hloads⟩ := hretryable.loads hfound
      have hchecked : Runs (request.accept world resolved) store outcome store' := hrun
      simp only [TurnRequest.accept, acceptTurnIdempotent, runs_bind, runs_lift_iff] at hchecked
      obtain ⟨_, _, ⟨hadmits, rfl⟩, _, _, ⟨hresolved, rfl⟩, -⟩ := hchecked
      by_cases hhash : receipt.requestHash = request.hash world
      · have hreplay := (hretryable.accept_replay hadmits hresolved hfound hhash hloads).2
        obtain ⟨houtcome, rfl⟩ := Prod.mk.inj (hrun.symm.trans hreplay)
        obtain rfl := Except.ok.inj houtcome
        exact .inl ⟨receipt, row, rfl, rfl, hloads, rfl⟩
      · exact absurd (hretryable.accept_conflict hadmits hresolved hfound hhash).2
          (Runs.not_fails hrun)

/-! ## Receipts and Turns -/

/-- The receipt of the request that the Turn was accepted for. -/
structure Stands (receipt : CommandReceipt) (label : TurnLabel) : Prop where
  key : ∃ key, label.idempotencyKey = some key ∧ receipt.commandId = .turn label.sessionId key
  result : ∃ entryId, receipt.result = .turn label.id entryId

theorem exists_right_of_forall₂ {A B : Type} {R : A → B → Prop} {left : List A} {right : List B}
    (hrelated : List.Forall₂ R left right) {value : A} (hvalue : value ∈ left) :
    ∃ other ∈ right, R value other := by
  induction hrelated with
  | nil => cases hvalue
  | @cons first other _ _ hfirst _ ih =>
      rcases List.mem_cons.mp hvalue with rfl | hrest
      · exact ⟨other, List.mem_cons_self, hfirst⟩
      · obtain ⟨found, hfound, hrelated⟩ := ih hrest
        exact ⟨found, List.mem_cons_of_mem _ hfound, hrelated⟩

/-- The receipts of Turns and the Turns, in the order of their tables. -/
def Filed (store : Store) : Prop :=
  List.Forall₂ Stands store.turnReceipts store.projection.turnLabels

theorem filed_empty : Filed empty := .nil

theorem Filed.congr (hfiled : store.Filed) (hreceipts : store'.turnReceipts = store.turnReceipts)
    (hlabels : store'.projection.turnLabels = store.projection.turnLabels) : store'.Filed := by
  rw [Filed, hreceipts, hlabels]
  exact hfiled

theorem Admitted.turnReceipts_eq {turn : Turn} (hadmitted : Admitted store request turn store') :
    ∃ receipt entryId, receipt.commandId = request.commandId ∧
      receipt.result = .turn turn.id entryId ∧
      store'.turnReceipts = store.turnReceipts ++ [receipt] := by
  obtain ⟨receipt, entryId, hcommand, hresult, hreceipts⟩ := hadmitted.receipts
  refine ⟨receipt, entryId, hcommand, hresult, ?_⟩
  have hturn : receipt.commandId.isTurn = true := by
    rw [hcommand]
    rfl
  rw [turnReceipts, hreceipts, List.filter_append, turnReceipts]
  simp only [List.filter_cons, hturn, if_true, List.filter_nil]

theorem Admitted.turnLabels_eq {turn : Turn} (hadmitted : Admitted store request turn store') :
    store'.projection.turnLabels = store.projection.turnLabels ++
      [⟨turn.id, request.sessionId, some request.key, request.source.channelOrigin⟩] := by
  obtain ⟨row, -, hlabel, hturns⟩ := hadmitted.turns
  rw [turnLabels, hturns, List.map_append, List.map_singleton, hlabel, turnLabels]

theorem Admitted.filed {turn : Turn} (hadmitted : Admitted store request turn store')
    (hfiled : store.Filed) : store'.Filed := by
  obtain ⟨receipt, entryId, hcommand, hresult, hreceipts⟩ := hadmitted.turnReceipts_eq
  rw [Filed, hreceipts, hadmitted.turnLabels_eq]
  refine List.rel_append hfiled (.cons ?_ .nil)
  exact ⟨⟨request.key, rfl, hcommand⟩, entryId, hresult⟩

theorem Filed.of_receipt (hfiled : store.Filed) (hkeyed : store.projection.Keyed)
    {receipt : CommandReceipt} {row : TurnRow} {message : Message}
    (hfound : store.selectCommandReceipt request.commandId = some receipt)
    (hloads : Loads store.projection request.sessionId receipt.result row message) :
    row.label.sessionId = request.sessionId ∧ row.label.idempotencyKey = some request.key := by
  have hcommand : receipt.commandId = request.commandId := by
    simpa using List.find?_some hfound
  have hreceipt : receipt ∈ store.turnReceipts := by
    refine List.mem_filter.mpr ⟨List.mem_of_find?_eq_some hfound, ?_⟩
    rw [hcommand]
    rfl
  obtain ⟨label, hlabel, ⟨key, hkey, hcommand'⟩, entryId, hresult⟩ := exists_right_of_forall₂ hfiled hreceipt
  obtain ⟨row', hrow', rfl⟩ := List.mem_map.mp hlabel
  obtain ⟨entry, -, hentry, -⟩ := hloads.entry
  rw [hresult, CommandResult.turn.injEq] at hentry
  obtain rfl := hkeyed.turns.eq_of_mem hrow' hloads.turn hentry.1
  rw [hcommand, TurnRequest.commandId, CommandId.turn.injEq] at hcommand'
  exact ⟨hcommand'.1.symm, by rw [hkey, hcommand'.2]⟩

/-- What comes of a request: a new Turn, the Turn of an earlier request under the key, or no
change of any table. -/
inductive Performed (store : Store) (request : TurnRequest) : Except StoreError Turn → Store → Prop
  | admitted (turn : Turn) (store' : Store) (hadmitted : Admitted store request turn store') :
      Performed store request (.ok turn) store'
  | repeated (row : TurnRow) (drawn : ℕ) (hrow : row ∈ store.projection.turns)
      (hsession : row.label.sessionId = request.sessionId)
      (hkey : row.label.idempotencyKey = some request.key) :
      Performed store request (.ok row.turn) { store with drawn }
  | refused (error : StoreError) (drawn : ℕ) :
      Performed store request (.error error) { store with drawn }

theorem Retryable.performed (hretryable : store.Retryable) (hfiled : store.Filed) :
    Performed store request ((request.accept world resolved store).1.map Prod.fst)
      (request.accept world resolved store).2 := by
  cases hrun : request.accept world resolved store with
  | mk outcome store' =>
      cases outcome with
      | ok outcome =>
          have hcases := hretryable.ensures_accept_cases outcome store' hrun
          rcases hcases with ⟨receipt, row, hfound, hturn, hloads, hsame⟩ | hadmitted
          · obtain ⟨hsession, hkey⟩ := hfiled.of_receipt hretryable.keyed hfound hloads
            simp only [Except.map, hturn]
            rw [hsame]
            exact .repeated row store'.drawn hloads.turn hsession hkey
          · exact .admitted outcome.1 store' hadmitted
      | error error =>
          have hsame := hretryable.rollback_of_fails_accept hrun
          simp only [Except.map]
          rw [hsame]
          exact .refused error store'.drawn

theorem step_accept {sessionId : SessionId} {key : String}
    {requestContent resolvedContent : MessageContent} {metadata : Value} {source : MessageSource} :
    step world store (.acceptTurnIdempotent sessionId key requestContent resolvedContent metadata
        source) =
      (TurnRequest.accept world ⟨sessionId, key, requestContent, metadata, source⟩ resolvedContent
        store).2 := by
  rw [step, exec, discard]
  change (Tx.andThen _ _ store).2 = _
  rw [Tx.andThen, TurnRequest.accept]
  cases acceptTurnIdempotent world sessionId key requestContent resolvedContent metadata source
    store with
  | mk outcome store' => cases outcome <;> rfl

theorem Performed.filed {outcome : Except StoreError Turn}
    (hperformed : Performed store request outcome store') (hfiled : store.Filed) :
    store'.Filed := by
  cases hperformed with
  | admitted _ _ hadmitted => exact hadmitted.filed hfiled
  | repeated | refused => exact hfiled.congr rfl rfl

theorem step_turnLabels (hkeyed : store.projection.Keyed) {op : StoreOp}
    (hother : op.accepts = false) :
    (step world store op).projection.turnLabels = store.projection.turnLabels := by
  apply (step_moves world hkeyed op).turnLabels_eq
  intro _ _ _ _ _ _ hproduces
  rw [StoreOp.accepts_of_produces hproduces] at hother
  cases hother

theorem step_filed (hretryable : store.Retryable) (hfiled : store.Filed) (op : StoreOp) :
    (step world store op).Filed := by
  cases haccepts : op.accepts with
  | false =>
      exact hfiled.congr (step_turnReceipts haccepts) (step_turnLabels hretryable.keyed haccepts)
  | true =>
      cases op with
      | acceptTurnIdempotent =>
          rw [step_accept]
          exact (hretryable.performed hfiled).filed hfiled
      | _ => cases haccepts

/-! ## Turns under a key -/

theorem commandIds_eq {receipts : List CommandReceipt} {labels : List TurnLabel}
    (hstands : List.Forall₂ Stands receipts labels) :
    receipts.map (·.commandId) = labels.map TurnLabel.commandId := by
  induction hstands with
  | nil => rfl
  | @cons receipt label _ _ hstands _ ih =>
      obtain ⟨⟨key, hkey, hcommand⟩, -⟩ := hstands
      have hhead : receipt.commandId = label.commandId := by
        rw [hcommand, TurnLabel.commandId, hkey, Option.getD_some]
      rw [List.map_cons, List.map_cons, ih, hhead]

/-- No two Turns have been accepted under one key. -/
def Distinct (store : Store) : Prop := (store.turnReceipts.map (·.commandId)).Nodup

theorem Performed.distinct {outcome : Except StoreError Turn}
    (hperformed : Performed store request outcome store') (hdistinct : store.Distinct) :
    store'.Distinct := by
  cases hperformed with
  | admitted _ _ hadmitted =>
      obtain ⟨receipt, _, hcommand, -, hreceipts⟩ := hadmitted.turnReceipts_eq
      have hnone := List.find?_eq_none.mp hadmitted.fresh
      rw [Distinct, hreceipts, List.map_append, List.map_singleton]
      refine List.Nodup.append hdistinct (List.nodup_singleton _) ?_
      rw [List.disjoint_singleton]
      intro hmem
      obtain ⟨earlier, hearlier, hsame⟩ := List.mem_map.mp hmem
      have hstored := (List.mem_filter.mp hearlier).1
      exact hnone earlier hstored (by simp [hsame, hcommand])
  | repeated | refused => exact hdistinct

theorem step_distinct (hretryable : store.Retryable) (hfiled : store.Filed)
    (hdistinct : store.Distinct) (op : StoreOp) : (step world store op).Distinct := by
  cases haccepts : op.accepts with
  | false =>
      rw [Distinct, step_turnReceipts haccepts]
      exact hdistinct
  | true =>
      cases op with
      | acceptTurnIdempotent =>
          rw [step_accept]
          exact (hretryable.performed hfiled).distinct hdistinct
      | _ => cases haccepts

theorem run_filed (world : World) (ops : List StoreOp) :
    (run world ops).Retryable ∧ (run world ops).Filed ∧ (run world ops).Distinct := by
  refine run_invariant world (fun store => store.Retryable ∧ store.Filed ∧ store.Distinct) ?_ ?_ ops
  · exact ⟨run_retryable world [], filed_empty, List.nodup_nil⟩
  · intro store op hstore
    obtain ⟨hretryable, hfiled, hdistinct⟩ := hstore
    exact ⟨(step_moves world hretryable.keyed op).retryable hretryable,
      step_filed hretryable hfiled op, step_distinct hretryable hfiled hdistinct op⟩

theorem Filed.isSome_select_iff (hfiled : store.Filed) {sessionId : SessionId} {key : String} :
    (store.selectCommandReceipt (.turn sessionId key)).isSome ↔
      ∃ row ∈ store.projection.turns,
        row.turn.sessionId = sessionId ∧ row.idempotencyKey = some key := by
  constructor
  · intro hsome
    obtain ⟨receipt, hfound⟩ := Option.isSome_iff_exists.mp hsome
    have hcommand : receipt.commandId = .turn sessionId key := by
      simpa using List.find?_some hfound
    have hreceipt : receipt ∈ store.turnReceipts := by
      refine List.mem_filter.mpr ⟨List.mem_of_find?_eq_some hfound, ?_⟩
      rw [hcommand]
      rfl
    obtain ⟨label, hlabel, ⟨key', hkey, hcommand'⟩, -⟩ := exists_right_of_forall₂ hfiled hreceipt
    obtain ⟨row, hrow, rfl⟩ := List.mem_map.mp hlabel
    rw [hcommand, CommandId.turn.injEq] at hcommand'
    exact ⟨row, hrow, hcommand'.1.symm, by rw [hcommand'.2]; exact hkey⟩
  · rintro ⟨row, hrow, hsession, hkey⟩
    obtain ⟨receipt, hreceipt, ⟨key', hkey', hcommand⟩, -⟩ :=
      exists_right_of_forall₂ hfiled.flip (mem_turnLabels hrow)
    have hsame : key' = key := Option.some.inj (hkey'.symm.trans hkey)
    refine List.find?_isSome.mpr ⟨receipt, (List.mem_filter.mp hreceipt).1, ?_⟩
    rw [decide_eq_true_eq, hcommand, hsame, ← hsession]
    rfl

theorem Distinct.eq_of_key (hdistinct : store.Distinct) (hfiled : store.Filed) {row other : TurnRow}
    (hrow : row ∈ store.projection.turns) (hother : other ∈ store.projection.turns)
    (hsession : row.turn.sessionId = other.turn.sessionId)
    (hkey : row.idempotencyKey = other.idempotencyKey) : row = other := by
  rw [Distinct, commandIds_eq hfiled, turnLabels, List.map_map] at hdistinct
  apply List.inj_on_of_nodup_map hdistinct hrow hother
  simp only [Function.comp_apply, TurnLabel.commandId, TurnRow.label, hsession, hkey]

/-- In every reachable state the receipts of Turns and the Turns stand one for one in the
order of their tables, no two under one key; a request adds one of each under a key that
has none, returns the Turn under its key, or changes no table, and no other command
changes either. -/
theorem turn_receipts_stand (world : World) (ops : List StoreOp) :
    let store := run world ops
    (store.Filed ∧ store.Distinct) ∧
    (∀ sessionId key, (store.selectCommandReceipt (.turn sessionId key)).isSome ↔
      ∃ row ∈ store.projection.turns,
        row.turn.sessionId = sessionId ∧ row.idempotencyKey = some key) ∧
    (∀ row ∈ store.projection.turns, ∀ other ∈ store.projection.turns,
      row.turn.sessionId = other.turn.sessionId → row.idempotencyKey = other.idempotencyKey →
        row = other) ∧
    (∀ (request : TurnRequest) (resolved : MessageContent),
      Performed store request ((request.accept world resolved store).1.map Prod.fst)
        (request.accept world resolved store).2) ∧
    ∀ op : StoreOp, op.accepts = false →
      (step world store op).turnReceipts = store.turnReceipts ∧
        (step world store op).projection.turnLabels = store.projection.turnLabels := by
  obtain ⟨hretryable, hfiled, hdistinct⟩ := run_filed world ops
  refine ⟨⟨hfiled, hdistinct⟩, fun _ _ => hfiled.isSome_select_iff, ?_, ?_, ?_⟩
  · intro row hrow other hother hsession hkey
    exact hdistinct.eq_of_key hfiled hrow hother hsession hkey
  · intro request resolved
    exact hretryable.performed hfiled
  · intro op hother
    exact ⟨step_turnReceipts hother, step_turnLabels hretryable.keyed hother⟩

end Admissions

end Store

end Mews
