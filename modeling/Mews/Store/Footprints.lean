import Mews.Store.Closing

/-!
# The footprint of a command

Which Turns a command may terminate, which events it may record, which
subscriptions it gives up and which checkpoints it acknowledges, and the proof
that every command is a chain of moves within its footprint.
-/

namespace Mews

open Protocol Tx

/-- The events that close what a Turn left open. -/
def closingPayload (turnId : TurnId) (payload : JournalEvent) : Prop :=
  (∃ entryId result, payload = .toolResultRecorded turnId entryId result) ∨
    ∃ row, payload = Store.closingEvent turnId row

/-- The events an ACP observation can be recorded as. -/
def observationPayload (turnId : TurnId) (payload : JournalEvent) : Prop :=
  (∃ entryId text visibility provenance,
    payload = .reasoningRecorded turnId entryId text visibility provenance) ∨
    ∃ entryId harnessSessionId kind data,
      payload = .harnessObservationRecorded turnId entryId harnessSessionId kind data

/-- The events a command may record. -/
def StoreOp.produces : StoreOp → JournalEvent → Prop
  | .scheduleEffect _ turnId effect, payload =>
      ∃ operationId, payload = .effectScheduled operationId turnId effect
  | .markEffectStarted _ turnId operationId, payload => payload = .effectStarted operationId turnId
  | .startEffect _ turnId effect, payload =>
      ∃ operationId, payload = .effectScheduled operationId turnId effect ∨
        payload = .effectStarted operationId turnId
  | .finishEffect _ turnId operationId outcome, payload =>
      payload = Store.EffectOutcome.event operationId turnId outcome
  | .startToolEffect _ turnId call, payload =>
      ∃ operationId, payload = .effectScheduled operationId turnId (.toolCall call) ∨
        payload = .effectStarted operationId turnId
  | .acceptTurnIdempotent _ _ _ resolvedContent metadata source, payload =>
      ∃ turnId agentRevision entryId,
        payload = .turnAccepted turnId agentRevision entryId resolvedContent metadata source
  | .bindAcpSession .., payload => ∃ binding, payload = .acpBindingChanged binding
  | .bindAcpSessionWithObservations _ _ turnId, payload =>
      (∃ binding, payload = .acpBindingChanged binding) ∨ observationPayload turnId payload
  | .markAcpContextDispatchedWithObservation _ turnId _, payload =>
      (∃ hostId harness version hash channel,
        payload = .acpContextDispatched hostId harness version hash channel) ∨
        observationPayload turnId payload
  | .createSession .., payload => ∃ session, payload = .sessionCreated session
  | .setSessionModel _ model, payload => payload = .sessionModelChanged model
  | .appendMessage _ _ content metadata source, payload
  | .appendMessageChecked _ _ _ content metadata source, payload =>
      ∃ entryId, payload = .userMessageAppended entryId content metadata source
  | .appendAssistantResponseWithToolCalls _ turnId response calls, payload =>
      ∃ entryId, payload = .assistantResponseRecorded turnId entryId response ∨
        ∃ call ∈ calls, payload = .toolCallRequested turnId entryId call
  | .appendToolResult _ turnId result, payload =>
      ∃ entryId, payload = .toolResultRecorded turnId entryId result
  | .completeToolExecution _ turnId result, payload =>
      ∃ operationId, payload = .toolExecutionCompleted operationId turnId result
  | .appendToolRequested _ turnId call, payload =>
      ∃ entryId, payload = .toolCallRequested turnId entryId call
  | .appendReasoning _ turnId text visibility provenance _, payload =>
      ∃ entryId, payload = .reasoningRecorded turnId entryId text visibility provenance
  | .appendHarnessObservations _ turnId _, payload | .appendAcpObservation _ turnId .., payload
  | .appendAcpObservationWithClientEvent _ turnId .., payload => observationPayload turnId payload
  | .appendContextCompaction _ summary firstKeptEntryId tokensBefore, payload =>
      ∃ entryId, payload = .contextCompacted entryId summary firstKeptEntryId tokensBefore
  | .setSessionLeafChecked _ _ newLeaf, payload => payload = .sessionLeafChanged newLeaf
  | .finishTurnWithStopReason turnId status error stopReason, payload =>
      closingPayload turnId payload ∨
        Store.terminalEvent turnId error stopReason status = some payload
  | .recordTurnHarness turnId .., payload => ∃ harness, payload = .turnStarted turnId harness
  | .recoverInterruptedWork, payload =>
      ∃ turnId, closingPayload turnId payload ∨ ∃ reason, payload = .turnInterrupted turnId reason
  | .createAgent .., payload =>
      ∃ agent initialRevision, payload = .agentCreated agent initialRevision
  | .renameAgent _ _ newSlug, payload | .rollbackAgentRename _ _ newSlug, payload =>
      payload = .agentRenamed newSlug
  | .archiveAgent .., payload => payload = .agentArchived
  | .updateAgent .., payload => ∃ revision, payload = .agentRevisionCreated revision
  | .revokeHost _ id, payload => payload = .hostRevoked id
  | .createInvitation _ expiresAt, payload =>
      ∃ id secretHash, payload = .hostInvitationCreated id expiresAt secretHash
  | .consumeInvitation _ invitationId .., payload =>
      (∃ hostId, payload = .hostInvitationConsumed invitationId hostId) ∨
        ∃ host, payload = .hostEnrolled host
  | .initializeHub .., payload =>
      (∃ host, payload = .hostEnrolled host) ∨
        ∃ installation, payload = .installationCreated installation
  | .setRelayUrl _ relayUrl, payload =>
      ∃ hostId, payload = .relayChanged (some relayUrl) (some hostId)
  | .setInstallationRelayUrl _ relayUrl, payload => payload = .relayChanged (some relayUrl) none
  | .setDefaultModel .., payload | .setDefaultReasoning .., payload =>
      ∃ defaults, payload = .providerDefaultsChanged defaults
  | .moveHub _ _ target, payload => ∃ generation, payload = .hubChanged target generation
  | _, _ => False

/-- The events that end a call, an effect or a Turn. -/
def Protocol.JournalEvent.endsWork : JournalEvent → Bool
  | .toolResultRecorded .. | .effectSucceeded .. | .effectFailed .. | .effectUncertain ..
  | .turnCompleted .. | .turnFailed .. | .turnCancelled .. | .turnInterrupted .. => true
  | _ => false

/-- The commands that end effects and Turns. -/
def StoreOp.finishes : StoreOp → Bool
  | .finishEffect .. | .finishTurnWithStopReason .. | .recoverInterruptedWork => true
  | _ => false

theorem endsWork_of_closingPayload {turnId : TurnId} {payload : JournalEvent}
    (hclosing : closingPayload turnId payload) : payload.endsWork = true := by
  rcases hclosing with ⟨_, _, rfl⟩ | ⟨row, rfl⟩
  · rfl
  · rw [Store.closingEvent]
    split <;> rfl

theorem StoreOp.endsWork_of_produces {op : StoreOp} {payload : JournalEvent}
    (hfinishes : op.finishes = true) (hproduces : op.produces payload) :
    payload.endsWork = true := by
  cases op with
  | finishEffect _ _ _ outcome =>
      obtain rfl : payload = _ := hproduces
      cases outcome <;> rfl
  | finishTurnWithStopReason turnId status =>
      rcases hproduces with hclosing | hterminal
      · exact endsWork_of_closingPayload hclosing
      · cases status <;> cases hterminal <;> rfl
  | recoverInterruptedWork =>
      obtain ⟨turnId, hclosing | ⟨_, rfl⟩⟩ := hproduces
      · exact endsWork_of_closingPayload hclosing
      · rfl
  | _ => cases hfinishes

/-- The Turns a command may terminate. -/
def StoreOp.closing : StoreOp → TurnId → Prop
  | .finishTurnWithStopReason turnId .., other => other = turnId
  | .recoverInterruptedWork, _ => True
  | _, _ => False

/-- The subscriptions a command gives up on behalf of a consumer. -/
def StoreOp.leaving : StoreOp → ConsumerId → SessionId → Prop
  | .deleteConsumer consumerId, other, _ => other = consumerId
  | .unsubscribeSession consumerId sessionId, other, session =>
      other = consumerId ∧ session = sessionId
  | _, _, _ => False

/-- The checkpoints a command acknowledges. -/
def StoreOp.acknowledges : StoreOp → ConsumerId → Nat → Prop
  | .acknowledgeEvents consumerId checkpoint, other, value =>
      other = consumerId ∧ value = checkpoint
  | _, _, _ => False

def StoreOp.footprint (op : StoreOp) : Footprint where
  closing := op.closing
  produces := op.produces
  leaving := op.leaving
  acknowledges := op.acknowledges

namespace Store

variable {world : World} {footprint : Footprint} {A : Type}

/-- From a store with sound keys, a chain of moves leads to the other. -/
def Reaches (world : World) (footprint : Footprint) (store store' : Store) : Prop :=
  store.projection.Keyed → Moves world footprint store store'

theorem Reaches.refl (store : Store) : Reaches world footprint store store := fun _ => .refl

theorem Reaches.trans (first second third : Store) (hfirst : Reaches world footprint first second)
    (hsecond : Reaches world footprint second third) : Reaches world footprint first third :=
  fun hkeyed => (hfirst hkeyed).trans (hsecond ((hfirst hkeyed).keyed hkeyed))

theorem rollback_self (store : Store) : rollback store store = store := rfl

theorem rollback_rollback (store reached reached' : Store) :
    rollback (rollback store reached) reached' = rollback store reached' := rfl

theorem rollsBack_transaction (body : Action A) : RollsBack rollback (transaction body) :=
  rollsBack_atomically body

theorem undone_newId {marker : String} :
    Undone rollback (newId world : Action (TaggedId marker)) :=
  fun store => ⟨{ store with drawn := store.drawn + 1 }, rfl⟩

theorem undone_utcNow : Undone rollback (utcNow world) :=
  fun store => ⟨{ store with drawn := store.drawn + 1 }, rfl⟩

theorem undone_newSecret : Undone rollback (newSecret world) :=
  fun store => ⟨{ store with drawn := store.drawn + 1 }, rfl⟩

theorem undone_singleSubject {subject : JournalSubject} {actor : EventActor}
    {payload : JournalEvent} : Undone rollback (singleSubject world subject actor payload) :=
  fun store => ⟨{ store with drawn := store.drawn + 1 }, rfl⟩

theorem undone_select (query : Projection → A) : Undone rollback (select query) :=
  undone_reads rollback_self _

theorem undone_requiredInstallation : Undone rollback requiredInstallation :=
  fun store => undone_expect rollback_self store.projection.installation _ store

theorem moves_of_rollsBack {action : Action A} {store : Store}
    (haction : RollsBack rollback action)
    (hok : ensures action store fun _ store' => Moves world footprint store store') :
    Moves world footprint store (action store).2 :=
  haction.related _ hok fun reached => .rolledBack store reached

theorem moves_transaction {body : Action A} {store : Store}
    (hbody : ensures body store fun _ store' => Moves world footprint store store') :
    Moves world footprint store (transaction body store).2 :=
  moves_of_rollsBack (rollsBack_transaction body) (by rwa [ensures_transaction])

/-- What follows a check runs in the state the check was made in. -/
theorem moves_require {condition : Prop} [Decidable condition] {error : StoreError}
    {next : Unit → Action A} {store : Store}
    (hnext : condition → Moves world footprint store (next () store).2) :
    Moves world footprint store ((require condition error >>= next) store).2 := by
  by_cases hcondition : condition
  · rw [require, if_pos hcondition]
    exact hnext hcondition
  · rw [require, if_neg hcondition]
    exact .refl

theorem moves_expect {B : Type} {value : Option A} {error : StoreError} {next : A → Action B}
    {store : Store} (hnext : ∀ found, Moves world footprint store (next found store).2) :
    Moves world footprint store ((expect value error >>= next) store).2 := by
  cases value with
  | none => exact .refl
  | some found => exact hnext found

/-- A transaction reaches what its body reaches when it succeeds. -/
theorem reaches_transaction {body : Action A}
    (hbody : ∀ store : Store, store.projection.Keyed →
      ensures body store fun _ store' => Moves world footprint store store') :
    Preserves (Reaches world footprint) (transaction body) :=
  fun store hkeyed => moves_transaction (hbody store hkeyed)

theorem Preserves.then {B : Type} {first : Action A} {next : A → Action B}
    (hfirst : Preserves (Reaches world footprint) first)
    (hnext : ∀ value, Preserves (Reaches world footprint) (next value)) :
    Preserves (Reaches world footprint) (first >>= next) :=
  hfirst.bind Reaches.trans hnext

theorem reaches_pure (value : A) : Preserves (Reaches world footprint) (pure value : Action A) :=
  preserves_pure Reaches.refl value

theorem reaches_fail (error : StoreError) :
    Preserves (Reaches world footprint) (fail error : Action A) :=
  preserves_fail Reaches.refl error

theorem reaches_lift (outcome : Except StoreError A) :
    Preserves (Reaches world footprint) (lift outcome : Action A) :=
  preserves_lift Reaches.refl outcome

theorem reaches_require (condition : Prop) [Decidable condition] (error : StoreError) :
    Preserves (Reaches world footprint) (require condition error : Action Unit) :=
  preserves_require Reaches.refl condition error

theorem reaches_reads (view : Store → A) :
    Preserves (Reaches world footprint) (reads view : Action A) :=
  preserves_reads Reaches.refl view

theorem reaches_expect (value : Option A) (error : StoreError) :
    Preserves (Reaches world footprint) (expect value error : Action A) :=
  preserves_expect Reaches.refl value error

theorem reaches_select (query : Projection → A) :
    Preserves (Reaches world footprint) (select query) :=
  reaches_reads _

theorem reaches_session (sessionId : SessionId) :
    Preserves (Reaches world footprint) (session sessionId) :=
  Preserves.then (reaches_select _) fun _ => reaches_expect _ _

theorem reaches_discard {action : Action A}
    (haction : Preserves (Reaches world footprint) action) :
    Preserves (Reaches world footprint) (discard action) :=
  Preserves.then haction fun _ => reaches_pure ()

end Store

end Mews
