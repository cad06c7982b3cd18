import Mews.Store.Footprints

/-!
# Delivery commands as moves

Runtime signals, subscriptions, polling, acknowledgement and pruning.
-/

namespace Mews

open Protocol Tx

namespace Store

variable {world : World} {footprint : Footprint} {A : Type}

section Delivery

variable {store : Store} {sessionId : SessionId} {turnId : TurnId}

theorem pruneClientEvents_reaches :
    Preserves (Reaches world footprint) (pruneClientEvents world) := by
  refine reaches_transaction fun store _ => ?_
  simp only [ensures_bind, ensures_utcNow, ensures_modify]
  refine .tail (.tail (.single (.drew store (store.drawn + 1))) (.delivered _ _
    (.consumersRemoved _ (expired (world.now store.drawn)) ?_))) (.delivered _ _ (.pruned _))
  intro consumer _ hexpired
  simp only [expired, Bool.and_eq_true, decide_eq_true_eq] at hexpired
  exact .inl hexpired.1

/-! ## Runtime signals -/

theorem ensures_insertTransient {body : ClientEventBody} {key : Option String} {start : Store}
    (hmoves : Moves world footprint start store) :
    ensures (insertClientEvent body (.transient key)) store fun _ store' =>
      Moves world footprint start store' := by
  simp only [insertClientEvent, ensures_bind, ensures_reads, ensures_require, ensures_modify,
    id_eq]
  intro hid hkey _
  refine hmoves.tail (.delivered _ _ (.signalled store body key hid ?_))
  intro text htext
  rw [idempotencyKeyExists, List.any_eq_false]
  rintro other hother hmatch
  simp only [decide_eq_true_eq] at hmatch
  exact hkey text htext other hother hmatch.1 hmatch.2

theorem ensures_appendRuntimeSignalIn {signal : RuntimeSignal} {key : Option String}
    {start : Store} (hmoves : Moves world footprint start store) :
    ensures (appendRuntimeSignalIn world signal key) store fun _ store' =>
      Moves world footprint start store' := by
  simp only [appendRuntimeSignalIn, ensures_bind, ensures_lift]
  intro _ _
  cases key with
  | none => exact ensures_insertTransient hmoves
  | some key =>
      simp only [insertOrIgnoreClientEvent, ensures_bind, ensures_reads, ensures_ite,
        ensures_modify]
      exact ⟨fun _ => hmoves.tail (.delivered _ _ (.ignored store)),
        fun _ => ensures_insertTransient hmoves⟩

theorem emitRuntimeSignalWithKey_reaches {payload : RuntimeSignalPayload} {key : Option String} :
    Preserves (Reaches world footprint)
      (emitRuntimeSignalWithKey world sessionId turnId payload key) := by
  refine Preserves.then (reaches_transaction fun store _ => ?_) fun emitted => ?_
  · simp only [ensures_bind, ensures_reads, ensures_ite, ensures_pure, ensures_select,
      ensures_expect, ensures_newId, ensures_utcNow]
    exact ⟨fun _ => .refl, fun _ origin _ =>
      ensures_appendRuntimeSignalIn (.single (.drew store _))⟩
  · cases emitted with
    | true => exact pruneClientEvents_reaches
    | false => exact reaches_pure ()

theorem appendRuntimeSignal_reaches {signal : RuntimeSignal} :
    Preserves (Reaches world footprint) (appendRuntimeSignal world signal) :=
  Preserves.then (reaches_transaction fun _ _ => ensures_appendRuntimeSignalIn .refl)
    fun _ => pruneClientEvents_reaches

theorem ensures_recordAcpObservation {acpSessionId eventKey : Option String}
    {observation : AcpObservation}
    (hproduces : ∀ payload, observationPayload turnId payload → footprint.produces payload) :
    ensures (recordAcpObservationTransaction world sessionId turnId acpSessionId eventKey
      observation) store fun _ store' => Moves world footprint store store' := by
  simp only [recordAcpObservationTransaction, ensures_bind, ensures_select, ensures_ite,
    ensures_pure, ensures_newId]
  refine ⟨fun _ => .refl, fun _ => ?_⟩
  have hpayload : ∀ entryId, observationPayload turnId
      (observationEvent turnId entryId acpSessionId observation) := by
    intro entryId
    cases observation with
    | completedReasoning => exact .inl ⟨_, _, _, _, rfl⟩
    | _ => exact .inr ⟨_, _, _, _, rfl⟩
  have hlawful : ∀ entryId, Lawful footprint.closing store.projection sessionId
      (observationEvent turnId entryId acpSessionId observation) := by
    intro entryId
    cases observation <;> trivial
  refine ensures_mono (ensures_appendSessionEventCorrelated (hlawful _)
    (hproduces _ (hpayload _))) ?_
  exact fun _ _ hrecorded => .trans (.single (.drew store _)) hrecorded.moves

theorem appendAcpObservation_reaches {acpSessionId eventKey : Option String}
    {observation : AcpObservation}
    (hproduces : ∀ payload, observationPayload turnId payload → footprint.produces payload) :
    Preserves (Reaches world footprint)
      (appendAcpObservation world sessionId turnId acpSessionId eventKey observation) :=
  reaches_transaction fun _ _ => ensures_recordAcpObservation hproduces

theorem ensures_observationWithSignal {acpSessionId eventKey : Option String}
    {observation : AcpObservation} {transient : Option RuntimeSignalPayload}
    (hproduces : ∀ payload, observationPayload turnId payload → footprint.produces payload) :
    ensures (do
      recordAcpObservationTransaction world sessionId turnId acpSessionId eventKey observation
      match transient with
      | none => return ()
      | some payload =>
          let channelOrigin ← Tx.expect (← select (activeTurnOrigin sessionId turnId))
            queryReturnedNoRows
          let id ← newId world
          let emittedAt ← utcNow world
          appendRuntimeSignalIn world
            ⟨id, sessionId, turnId, channelOrigin, emittedAt, payload⟩ eventKey) store
      fun _ store' => Moves world footprint store store' := by
  simp only [ensures_bind]
  refine ensures_mono (ensures_recordAcpObservation hproduces) fun _ store' hmoves => ?_
  cases transient with
  | none => simpa using hmoves
  | some payload =>
      simp only [ensures_bind, ensures_select, ensures_expect, ensures_newId, ensures_utcNow]
      exact fun origin _ => ensures_appendRuntimeSignalIn (hmoves.tail (.drew store' _))

theorem appendAcpObservationWithClientEvent_reaches {acpSessionId eventKey : Option String}
    {observation : AcpObservation} {event : ClientEventKind}
    (hproduces : ∀ payload, observationPayload turnId payload → footprint.produces payload) :
    Preserves (Reaches world footprint)
      (appendAcpObservationWithClientEvent world sessionId turnId acpSessionId eventKey
        observation event) := by
  unfold appendAcpObservationWithClientEvent
  split
  · exact reaches_fail _
  · exact emitRuntimeSignalWithKey_reaches
  · exact Preserves.then (reaches_transaction fun _ _ => ensures_observationWithSignal hproduces)
      fun _ => pruneClientEvents_reaches

/-! ## Subscriptions and polling -/

theorem ensures_upsertConsumer {consumerId : ConsumerId} {kind : ConsumerKind} {now : DateTime}
    {start : Store} (hmoves : Moves world footprint start store) :
    ensures (upsertConsumer consumerId kind now) store fun _ store' =>
      Moves world footprint start store' := by
  simp only [upsertConsumer, ensures_bind, ensures_reads, id_eq]
  cases hfind : store.clientConsumers.find? fun consumer => consumer.id = consumerId with
  | none =>
      simp only [ensures_modify]
      exact hmoves.tail (.delivered _ _ (.consumerAdded store consumerId kind now hfind))
  | some consumer =>
      simp only [ensures_bind, ensures_require, ensures_modify]
      exact fun _ => hmoves.tail (.delivered _ _ (.consumerTouched store consumerId now))

theorem subscribeSession_reaches {consumerId : ConsumerId} {kind : ConsumerKind} :
    Preserves (Reaches world footprint) (subscribeSession world consumerId sessionId kind) := by
  refine Preserves.then (reaches_session _) fun _ => reaches_transaction fun store _ => ?_
  simp only [ensures_bind, ensures_utcNow]
  have hdrew : Moves world footprint store { store with drawn := store.drawn + 1 } :=
    .single (.drew store _)
  refine ensures_mono (ensures_upsertConsumer hdrew) fun _ store' hmoves => ?_
  simp only [ensures_modify]
  split
  · exact hmoves
  · exact hmoves.tail (.delivered _ _ (.subscribed store' consumerId sessionId))

/-- A change of the delivery tables outside any transaction. -/
theorem reaches_modify {change : Store → Store}
    (hchange : ∀ store, DeliveryMove footprint store (change store)) :
    Preserves (Reaches world footprint) (modify change : Action Unit) :=
  fun store _ => .single (.delivered _ _ (hchange store))

theorem deleteConsumer_reaches {consumerId : ConsumerId}
    (hleaving : ∀ sessionId, footprint.leaving consumerId sessionId) :
    Preserves (Reaches world footprint) (deleteConsumer world consumerId) := by
  refine Preserves.then (reaches_modify fun store => .consumersRemoved store _ ?_)
    fun _ => pruneClientEvents_reaches
  intro consumer _ hgone
  rw [decide_eq_true_eq] at hgone
  exact .inr fun sessionId => by rw [hgone]; exact hleaving sessionId

theorem unsubscribeSession_reaches {consumerId : ConsumerId}
    (hleaving : footprint.leaving consumerId sessionId) :
    Preserves (Reaches world footprint) (unsubscribeSession world consumerId sessionId) := by
  refine Preserves.then (reaches_modify fun store => .unsubscribed store _ ?_)
    fun _ => pruneClientEvents_reaches
  intro row _ hgone
  simp only [Bool.and_eq_true, decide_eq_true_eq] at hgone
  rw [hgone.1, hgone.2]
  exact hleaving

theorem reaches_utcNow : Preserves (Reaches world footprint) (utcNow world) :=
  fun store _ => .single (.drew store _)

theorem reaches_newId {marker : String} :
    Preserves (Reaches world footprint) (newId world : Action (TaggedId marker)) :=
  fun store _ => .single (.drew store _)

theorem pollClientEvents_reaches {consumerId : ConsumerId} {limit : Nat} :
    Preserves (Reaches world footprint) (pollClientEvents world consumerId limit) := by
  refine Preserves.then reaches_utcNow fun now => Preserves.then (reaches_reads _) fun _ =>
    Preserves.then (reaches_expect _ _) fun consumer => Preserves.then (reaches_modify ?_)
      fun _ => Preserves.then (reaches_reads _) fun _ => Preserves.then (reaches_lift _)
        fun _ => reaches_pure _
  exact fun store => .consumerTouched store consumerId now

theorem acknowledgeEvents_reaches {consumerId : ConsumerId} {checkpoint : Nat}
    (hacknowledges : footprint.acknowledges consumerId checkpoint) :
    Preserves (Reaches world footprint) (acknowledgeEvents world consumerId checkpoint) := by
  intro store hkeyed
  change Moves world footprint store ((require (checkpoint ≤ store.clientEventSequence) _
    >>= fun _ => _) store).2
  refine moves_require fun hcheckpoint => ?_
  change Moves world footprint store ((expect (store.findConsumer consumerId) _ >>= fun _ => _)
    { store with drawn := store.drawn + 1 }).2
  refine .trans (.single (.drew store (store.drawn + 1))) (moves_expect fun _ => ?_)
  refine .trans (.single (.delivered _ _ (.acknowledged _ consumerId checkpoint
    (world.now store.drawn) hcheckpoint hacknowledges))) ?_
  exact pruneClientEvents_reaches _ hkeyed

end Delivery

end Store

end Mews
