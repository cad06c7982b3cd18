import Mews.Store.DeliveryMoves

/-!
# Session commands as moves

Effects, Turn acceptance and termination, ACP bindings and timeline appends.
-/

namespace Mews

open Protocol Tx

namespace Store

variable {world : World} {footprint : Footprint} {A : Type}

/-! ## Effects -/

section Sessions

variable {store : Store} {sessionId : SessionId} {turnId : TurnId}

theorem Recorded.active {payload : JournalEvent} {correlationId : Option String}
    {event : JournalEntry} {store' : Store} {owner : SessionId}
    (hrecorded : Recorded world footprint store owner payload correlationId event store')
    (hwrites : Projection.writesTurns payload = false)
    (hactive : store.projection.isActiveTurn sessionId turnId = true) :
    store'.projection.isActiveTurn sessionId turnId = true := by
  obtain ⟨delivery, hchange⟩ := hrecorded.change
  rw [Projection.isActiveTurn_congr (hchange.turns_eq (by rwa [hrecorded.payload_eq])), hactive]

theorem ensures_scheduleEffectIn {effect : EffectRequest}
    (hactive : store.projection.isActiveTurn sessionId turnId = true)
    (hproduces : ∀ operationId, footprint.produces (.effectScheduled operationId turnId effect)) :
    ensures (scheduleEffectIn world sessionId turnId effect) store fun _ store' =>
      Moves world footprint store store' ∧
      store'.projection.isActiveTurn sessionId turnId = true := by
  simp only [scheduleEffectIn, ensures_bind, ensures_newId, ensures_turnActor, ensures_pure]
  intro actor _
  refine ensures_mono (ensures_appendSessionEvent hactive (hproduces _)) ?_
  intro event store' hrecorded
  exact ⟨.trans (.single (.drew store _)) hrecorded.moves, hrecorded.active rfl hactive⟩

theorem ensures_markEffectStartedIn {operationId : OperationId}
    (hactive : store.projection.isActiveTurn sessionId turnId = true)
    (hproduces : footprint.produces (.effectStarted operationId turnId)) :
    ensures (markEffectStartedIn world sessionId turnId operationId) store fun _ store' =>
      Moves world footprint store store' := by
  simp only [markEffectStartedIn, ensures_bind, ensures_select, ensures_require,
    ensures_turnActor, ensures_pure]
  intro howned actor _
  exact ensures_mono (ensures_appendSessionEvent ⟨hactive, howned⟩ hproduces)
    fun _ _ hrecorded => hrecorded.moves

theorem scheduleEffect_reaches {effect : EffectRequest}
    (hproduces : ∀ operationId, footprint.produces (.effectScheduled operationId turnId effect)) :
    Preserves (Reaches world footprint) (scheduleEffect world sessionId turnId effect) := by
  refine reaches_transaction fun store _ => ?_
  simp only [ensures_bind, ensures_validateActiveTurn]
  intro hactive
  exact ensures_mono (ensures_scheduleEffectIn hactive hproduces) fun _ _ h => h.1

theorem markEffectStarted_reaches {operationId : OperationId}
    (hproduces : footprint.produces (.effectStarted operationId turnId)) :
    Preserves (Reaches world footprint) (markEffectStarted world sessionId turnId operationId) := by
  refine reaches_transaction fun store _ => ?_
  simp only [ensures_bind, ensures_validateActiveTurn]
  intro hactive
  exact ensures_markEffectStartedIn hactive hproduces

theorem startEffect_reaches {effect : EffectRequest}
    (hscheduled : ∀ operationId, footprint.produces (.effectScheduled operationId turnId effect))
    (hstarted : ∀ operationId, footprint.produces (.effectStarted operationId turnId)) :
    Preserves (Reaches world footprint) (startEffect world sessionId turnId effect) := by
  refine reaches_transaction fun store _ => ?_
  simp only [ensures_bind, ensures_validateActiveTurn, ensures_pure]
  intro hactive
  refine ensures_mono (ensures_scheduleEffectIn hactive hscheduled) ?_
  rintro operationId store' ⟨hmoves, hactive'⟩
  exact ensures_mono (ensures_markEffectStartedIn hactive' (hstarted operationId))
    fun _ _ hmoves' => hmoves.trans hmoves'

theorem finishEffect_reaches {operationId : OperationId} {outcome : EffectOutcome}
    (hproduces : footprint.produces (EffectOutcome.event operationId turnId outcome)) :
    Preserves (Reaches world footprint)
      (finishEffect world sessionId turnId operationId outcome) := by
  refine reaches_transaction fun store _ => ?_
  simp only [finishEffectIn, ensures_bind, ensures_validateActiveTurn, ensures_select,
    ensures_require, ensures_turnActor, ensures_pure]
  intro hactive howned actor _
  have hlawful : Lawful footprint.closing store.projection sessionId
      (EffectOutcome.event operationId turnId outcome) := by
    cases outcome with
    | succeeded result => exact ⟨hactive, howned⟩
    | failed error => exact ⟨hactive, .inl howned⟩
    | uncertain reason => exact ⟨hactive, howned⟩
  exact ensures_mono (ensures_appendSessionEvent hlawful hproduces)
    fun _ _ hrecorded => hrecorded.moves

/-! ## Turn acceptance -/

theorem reaches_loadTurnResult (sessionId : SessionId) (result : CommandResult) :
    Preserves (Reaches world footprint) (loadTurnResult sessionId result) := by
  cases result with
  | turn turnId entryId =>
      refine Preserves.then ?_ fun turn => Preserves.then ?_ fun entry =>
        Preserves.then (reaches_lift _) fun message => reaches_pure _
      · exact Preserves.then (reaches_select _) fun _ => reaches_lift _
      · exact Preserves.then (reaches_select _) fun _ => reaches_lift _
  | _ => exact reaches_fail _

/-- The receipt of an accepted Turn holds of the tables the Turn was projected to. -/
theorem receiptHolds_accepted {tables tables' : Projection} {event : JournalEntry}
    {delivery : Option Delivery} {receipt : CommandReceipt} {agentRevision : Nat}
    {entryId : MessageId} {content : MessageContent} {metadata : Value} {source : MessageSource}
    {key : String}
    (hchange : Projection.SessionChange world tables sessionId event tables' delivery)
    (hpayload : event.payload = .turnAccepted turnId agentRevision entryId content metadata source)
    (hcommand : receipt.commandId = .turn sessionId key)
    (hresult : receipt.result = .turn turnId entryId) : ReceiptHolds tables' receipt := by
  intro sessionId' key' heq
  obtain ⟨placed, entry, hplaced, -, rfl, -⟩ := hchange.of_turnAccepted hpayload
  rw [hcommand] at heq
  cases heq
  refine ⟨turnId, entryId, hresult, ⟨_, List.mem_append_right _ (List.mem_singleton_self _), rfl,
    rfl⟩, ⟨entry, true, none⟩, ?_, hplaced.id_eq, content, metadata, source, hplaced.payload_eq⟩
  change _ ∈ placed.timeline sessionId
  rw [hplaced.timeline_eq]
  simp

/-- One subject with one entry leaves one committed entry. -/
theorem Inserted.of_turnAppend {store : Store} {key : String}
    {requestContent resolvedContent : MessageContent} {metadata : Value} {source : MessageSource}
    {agentRevision : Nat} {entryId : MessageId} {eventId : EventId}
    {committed : List JournalEntry}
    (hinserted : Inserted store (turnAppend world sessionId key requestContent resolvedContent
      metadata source agentRevision turnId entryId eventId).items committed) :
    ∃ event, committed = [event] ∧
      event.payload = .turnAccepted turnId agentRevision entryId resolvedContent metadata source ∧
      event.subject = .session sessionId ∧ event.position = store.lastPosition + 1 := by
  have hlength := congrArg List.length hinserted.payloads
  simp only [turnAppend, JournalAppend.items, List.flatMap_cons, List.flatMap_nil, List.map_cons,
    List.map_nil, List.length_map, List.append_nil, List.length_cons, List.length_nil] at hlength
  obtain ⟨event, rfl⟩ := List.length_eq_one_iff.mp hlength
  have hpayload := hinserted.payloads
  have hsubject := hinserted.subjects
  have hposition := hinserted.positions
  simp only [turnAppend, JournalAppend.items, List.flatMap_cons, List.flatMap_nil, List.map_cons,
    List.map_nil, List.append_nil, List.cons.injEq, and_true, List.length_cons, List.length_nil,
    Nat.zero_add, List.range'_one] at hpayload hsubject hposition
  exact ⟨event, rfl, hpayload, hsubject, hposition⟩

/-- An acceptance commits its Turn with a receipt, or finds the receipt of an
earlier one and changes nothing. -/
theorem ensures_acceptTurnIn {store : Store} {key : String}
    {requestContent resolvedContent : MessageContent} {metadata : Value} {source : MessageSource}
    (hproduces : ∀ turnId agentRevision entryId,
      footprint.produces (.turnAccepted turnId agentRevision entryId resolvedContent metadata
        source)) :
    ensures (acceptTurnIn world sessionId key requestContent resolvedContent metadata source) store
      fun outcome store' => Moves world footprint store store' ∧
        store'.selectCommandReceipt (.turn sessionId key) = some outcome.receipt ∧
        outcome.receipt.requestHash =
          world.requestHash (.turn sessionId requestContent metadata source) ∧
        outcome.wasReplayed = (store.selectCommandReceipt (.turn sessionId key)).isSome := by
  simp only [acceptTurnIn, ensures_bind, ensures_select, ensures_expect, ensures_newId]
  intro agentRevision _
  refine ensures_appendJournalEntriesIn ?_ ?_
  · intro receipt hreceipt hhash
    have hfound : store.selectCommandReceipt (.turn sessionId key) = some receipt := hreceipt
    exact ⟨.single (.drew store _), hfound, hhash, by rw [hfound]; rfl⟩
  intro hnone committed hinserted
  have hnew : store.selectCommandReceipt (.turn sessionId key) = none := hnone
  obtain ⟨event, rfl, hpayload, hsubject, hposition⟩ := hinserted.of_turnAppend
  simp only [each, ensures_andThen, ensures_ret]
  refine ensures_mono (ensures_applySessionJournalEntry hsubject) ?_
  rintro _ _ ⟨tables, delivery, hproject, hfresh, hdeliver, rfl⟩
  refine ⟨?_, ?_, rfl, ?_⟩
  · refine .tail (.tail (.single (.drew store (store.drawn + 1 + 1 + 1 + 1))) (.projected _
      sessionId event tables delivery hsubject (hinserted.fresh event (by simp)) hposition
      (by rw [hpayload]; trivial) (by rw [hpayload]; exact hproduces _ _ _) hproject hfresh
      hdeliver)) ?_
    refine .received _ _ (by rw [selectCommandReceipt, publish_commandReceipts]; exact hnew) ?_
    rw [publish_projection]
    exact receiptHolds_accepted (Projection.projectSession_change hsubject hproject) hpayload rfl
      rfl
  · exact selectCommandReceipt_received (congrArg (· ++ _) (publish_commandReceipts _ _ _ _)) hnew rfl
  · rw [hnew]
    rfl

theorem acceptTurnIdempotent_reaches {key : String}
    {requestContent resolvedContent : MessageContent} {metadata : Value} {source : MessageSource}
    (hproduces : ∀ turnId agentRevision entryId,
      footprint.produces (.turnAccepted turnId agentRevision entryId resolvedContent metadata
        source)) :
    Preserves (Reaches world footprint)
      (acceptTurnIdempotent world sessionId key requestContent resolvedContent metadata
        source) := by
  refine Preserves.then (reaches_lift _) fun _ => Preserves.then (reaches_lift _) fun _ =>
    Preserves.then ?_ fun outcome => Preserves.then (reaches_loadTurnResult _ _) fun _ =>
      reaches_pure _
  exact reaches_transaction fun store _ =>
    ensures_mono (ensures_acceptTurnIn hproduces) fun _ _ h => h.1

/-! ## ACP bindings and observations -/

theorem ensures_decideAcpBinding {input : AcpBindingInput} {start : Store}
    (hmoves : Moves world footprint start store) :
    ensures (decideAcpBinding world sessionId input) store fun _ store' =>
      Moves world footprint start store' := by
  have hdrew : Moves world footprint start { store with drawn := store.drawn + 1 } :=
    hmoves.tail (.drew store _)
  simp only [decideAcpBinding, ensures_bind, ensures_require, ensures_select, ensures_utcNow]
  intro _
  cases store.projection.selectAcpBinding sessionId <;> cases input.transition <;>
    simp [hdrew]

theorem ensures_bindingChanged {actor : EventActor} {binding : AcpSessionBinding}
    (hproduces : ∀ binding, footprint.produces (.acpBindingChanged binding)) :
    ensures (appendSessionEvent world sessionId actor (.acpBindingChanged binding)) store
      fun _ store' => Moves world footprint store store' :=
  ensures_mono (ensures_appendSessionEvent trivial (hproduces binding))
    fun _ _ hrecorded => hrecorded.moves

theorem bindAcpSession_reaches {input : AcpBindingInput}
    (hproduces : ∀ binding, footprint.produces (.acpBindingChanged binding)) :
    Preserves (Reaches world footprint) (bindAcpSession world sessionId input) := by
  refine Preserves.then (reaches_transaction fun store _ => ?_) fun _ =>
    Preserves.then (reaches_select _) fun _ => reaches_expect _ _
  simp only [ensures_bind, ensures_pure]
  have hstart : Moves world footprint store store := .refl
  refine ensures_mono (ensures_decideAcpBinding hstart) fun binding store' hmoves => ?_
  exact ensures_mono (ensures_bindingChanged hproduces) fun _ _ hmoves' => hmoves.trans hmoves'

theorem bindAcpSessionWithObservations_reaches {input : AcpBindingInput}
    (hbinding : ∀ binding, footprint.produces (.acpBindingChanged binding))
    (hproduces : ∀ payload, observationPayload turnId payload → footprint.produces payload) :
    Preserves (Reaches world footprint)
      (bindAcpSessionWithObservations world sessionId input turnId) := by
  refine reaches_transaction fun store _ => ?_
  simp only [ensures_bind, ensures_select, ensures_ite, ensures_pure]
  refine ⟨fun _ => .refl, fun _ => ?_⟩
  have hstart : Moves world footprint store store := .refl
  refine ensures_mono (ensures_decideAcpBinding hstart) fun binding first hfirst => ?_
  refine ensures_mono (ensures_bindingChanged hbinding) fun _ second hsecond => ?_
  refine ensures_mono (ensures_recordAcpObservation hproduces) fun _ third hthird => ?_
  have hmoves := (hfirst.trans hsecond).trans hthird
  refine ⟨fun _ => ?_, fun _ => hmoves⟩
  exact ensures_mono (ensures_recordAcpObservation hproduces)
    fun _ _ hfourth => hmoves.trans hfourth

theorem markAcpContextDispatched_reaches {acpSessionId : String}
    (hdispatched : ∀ hostId harness version hash channel,
      footprint.produces (.acpContextDispatched hostId harness version hash channel))
    (hproduces : ∀ payload, observationPayload turnId payload → footprint.produces payload) :
    Preserves (Reaches world footprint)
      (markAcpContextDispatchedWithObservation world sessionId turnId acpSessionId) := by
  refine reaches_transaction fun store _ => ?_
  simp only [ensures_bind, ensures_select, ensures_ite, ensures_pure, ensures_expect,
    ensures_require]
  refine ⟨fun _ => .refl, fun _ binding _ _ => ?_⟩
  refine ensures_mono (ensures_appendSessionEvent trivial (hdispatched _ _ _ _ _)) ?_
  intro event store' hrecorded
  exact ensures_mono (ensures_recordAcpObservation hproduces)
    fun _ _ hmoves => hrecorded.moves.trans hmoves

/-! ## Sessions and timeline appends -/

/-- Recording one event extends a chain of moves. -/
theorem ensures_record {actor : EventActor} {payload : JournalEvent}
    {correlationId : Option String} {start : Store}
    (hlawful : Lawful footprint.closing store.projection sessionId payload)
    (hproduces : footprint.produces payload) (hmoves : Moves world footprint start store) :
    ensures (appendSessionEventCorrelated world sessionId actor payload correlationId) store
      fun _ store' => Moves world footprint start store' :=
  ensures_mono (ensures_appendSessionEventCorrelated hlawful hproduces)
    fun _ _ hrecorded => hmoves.trans hrecorded.moves

theorem createSession_reaches {agentId : AgentId} {hostId : HostId} {workingDirectory : String}
    (hproduces : ∀ session, footprint.produces (.sessionCreated session)) :
    Preserves (Reaches world footprint) (createSession world agentId hostId workingDirectory) := by
  refine Preserves.then (reaches_lift _) fun _ => reaches_transaction fun store _ => ?_
  simp only [ensures_bind, ensures_select, ensures_require, ensures_newId, ensures_utcNow,
    ensures_pure, appendSessionEvent]
  exact fun _ => ensures_record trivial (hproduces _) (.single (.drew store _))

theorem setSessionModel_reaches {model : Option String}
    (hproduces : footprint.produces (.sessionModelChanged model)) :
    Preserves (Reaches world footprint) (setSessionModel world sessionId model) := by
  refine Preserves.then (reaches_require _ _) fun _ => Preserves.then (reaches_session _) fun _ =>
    Preserves.then (reaches_transaction fun store _ => ?_) fun _ => reaches_session _
  simp only [ensures_bind, ensures_pure, appendSessionEvent]
  exact ensures_record trivial hproduces .refl

/-- A Turn's entry, once its event is known to be lawful. -/
theorem ensures_appendTurnEntry {kind : EventActorKind} {event : MessageId → JournalEvent}
    (hlawful : ∀ entryId, Lawful footprint.closing store.projection sessionId (event entryId))
    (hproduces : ∀ entryId, footprint.produces (event entryId)) :
    ensures (appendTurnEntry world sessionId turnId kind event) store fun _ store' =>
      Moves world footprint store store' := by
  simp only [appendTurnEntry, ensures_bind, ensures_newId, ensures_turnActor, ensures_selectEntry,
    appendSessionEvent]
  intro actor _
  refine ensures_mono (ensures_record (hlawful _) (hproduces _) (.single (.drew store _))) ?_
  exact fun _ _ hmoves _ _ => hmoves

theorem appendToolResult_reaches {result : ToolResult}
    (hproduces : ∀ entryId, footprint.produces (.toolResultRecorded turnId entryId result)) :
    Preserves (Reaches world footprint) (appendToolResult world sessionId turnId result) := by
  refine reaches_transaction fun store _ => ?_
  simp only [ensures_bind, ensures_validateActiveTurn, ensures_select, ensures_require]
  exact fun hactive _ => ensures_appendTurnEntry (fun _ => hactive) hproduces

theorem appendToolRequested_reaches {call : ToolCall}
    (hproduces : ∀ entryId, footprint.produces (.toolCallRequested turnId entryId call)) :
    Preserves (Reaches world footprint) (appendToolRequested world sessionId turnId call) := by
  refine reaches_transaction fun store _ => ?_
  simp only [ensures_bind, ensures_validateActiveTurn]
  exact fun hactive => ensures_appendTurnEntry (fun _ => hactive) hproduces

theorem completeToolExecution_reaches {result : ToolResult}
    (hproduces : ∀ operationId,
      footprint.produces (.toolExecutionCompleted operationId turnId result)) :
    Preserves (Reaches world footprint) (completeToolExecution world sessionId turnId result) := by
  refine reaches_transaction fun store _ => ?_
  simp only [ensures_bind, ensures_validateActiveTurn, ensures_select, ensures_expect,
    ensures_turnActor, ensures_pure, appendSessionEvent]
  intro hactive row hfind actor _
  have hrow := List.find?_some hfind
  simp only [decide_eq_true_eq] at hrow
  exact ensures_record ⟨hactive, row, List.mem_of_find?_eq_some hfind, rfl, hrow.1, hrow.2.1,
    hrow.2.2⟩ (hproduces _) .refl

theorem appendReasoning_reaches {text : String} {visibility : ReasoningVisibility}
    {provenance : ReasoningProvenance} {idempotencyKey : Option String}
    (hproduces : ∀ entryId,
      footprint.produces (.reasoningRecorded turnId entryId text visibility provenance)) :
    Preserves (Reaches world footprint)
      (appendReasoning world sessionId turnId text visibility provenance idempotencyKey) := by
  refine reaches_transaction fun store _ => ?_
  simp only [ensures_bind, ensures_validateActiveTurn, ensures_select, ensures_ite, ensures_pure,
    ensures_newId, ensures_turnActor]
  refine fun _ => ⟨fun _ => .refl, fun _ actor _ => ?_⟩
  exact ensures_record trivial (hproduces _) (.single (.drew store _))

theorem ensures_appendHarnessObservationIn {actor : EventActor}
    {observation : HarnessObservationInput} {start : Store}
    (hproduces : ∀ payload, observationPayload turnId payload → footprint.produces payload)
    (hmoves : Moves world footprint start store) :
    ensures (appendHarnessObservationIn world sessionId turnId actor observation) store
      fun _ store' => Moves world footprint start store' := by
  simp only [appendHarnessObservationIn, ensures_bind, ensures_select, ensures_ite, ensures_pure,
    ensures_newId]
  refine ⟨fun _ => hmoves, fun _ => ?_⟩
  exact ensures_record trivial (hproduces _ (.inr ⟨_, _, _, _, rfl⟩)) (hmoves.tail (.drew store _))

theorem appendHarnessObservations_reaches {observations : List HarnessObservationInput}
    (hproduces : ∀ payload, observationPayload turnId payload → footprint.produces payload) :
    Preserves (Reaches world footprint)
      (appendHarnessObservations world sessionId turnId observations) := by
  refine Preserves.then (reaches_require _ _) fun _ => reaches_transaction fun store _ => ?_
  simp only [ensures_bind, ensures_validateActiveTurn, ensures_turnActor]
  intro _ actor _
  refine ensures_each (fun _ store' => Moves world footprint store store') .refl ?_
  intro _ observation _ store' _ hmoves
  exact ensures_appendHarnessObservationIn hproduces hmoves

theorem appendContextCompaction_reaches {summary : String} {firstKeptEntryId : MessageId}
    {tokensBefore : Nat}
    (hproduces : ∀ entryId,
      footprint.produces (.contextCompacted entryId summary firstKeptEntryId tokensBefore)) :
    Preserves (Reaches world footprint)
      (appendContextCompaction world sessionId summary firstKeptEntryId tokensBefore) := by
  intro store _
  refine moves_require fun _ => ?_
  change Moves world footprint store
    ((require (∃ entry ∈ store.projection.activeEntries sessionId, entry.id = firstKeptEntryId) _
      >>= fun _ => transaction _) store).2
  refine moves_require fun hkept => moves_transaction ?_
  simp only [ensures_bind, ensures_newId, ensures_selectEntry, appendSessionEvent]
  refine ensures_mono (ensures_record hkept (hproduces _) (.single (.drew store _))) ?_
  exact fun _ _ hmoves _ _ => hmoves

theorem appendMessageChecked_reaches {expectedLeaf : Option MessageId} {role : MessageRole}
    {content : MessageContent} {metadata : Value} {source : MessageSource}
    (hproduces : ∀ entryId,
      footprint.produces (.userMessageAppended entryId content metadata source)) :
    Preserves (Reaches world footprint)
      (appendMessageChecked world sessionId expectedLeaf role content metadata source) := by
  refine Preserves.then (reaches_require _ _) fun _ => Preserves.then (reaches_lift _) fun _ =>
    reaches_transaction fun store _ => ?_
  simp only [requireLeaf, ensures_bind, ensures_session, ensures_require, ensures_newId,
    ensures_selectEntry, ensures_lift, appendSessionEvent]
  intro _ _ _
  refine ensures_mono (ensures_record trivial (hproduces _) (.single (.drew store _))) ?_
  exact fun _ _ hmoves _ _ _ _ => hmoves

theorem appendMessage_reaches {role : MessageRole} {content : MessageContent} {metadata : Value}
    {source : MessageSource}
    (hproduces : ∀ entryId,
      footprint.produces (.userMessageAppended entryId content metadata source)) :
    Preserves (Reaches world footprint)
      (appendMessage world sessionId role content metadata source) :=
  Preserves.then (reaches_session _) fun _ => appendMessageChecked_reaches hproduces

theorem setSessionLeafChecked_reaches {expectedLeaf newLeaf : Option MessageId}
    (hproduces : footprint.produces (.sessionLeafChanged newLeaf)) :
    Preserves (Reaches world footprint)
      (setSessionLeafChecked world sessionId expectedLeaf newLeaf) := by
  refine Preserves.then (reaches_transaction fun store _ => ?_) fun _ => reaches_session _
  simp only [requireLeaf, ensures_bind, ensures_session, ensures_require, ensures_select,
    ensures_pure, appendSessionEvent, id_eq]
  exact fun _ _ _ hleaf => ensures_record hleaf hproduces .refl

/-! ## Turns -/

theorem closable_of_produces (hclosing : footprint.closing turnId)
    (hproduces : ∀ payload, closingPayload turnId payload → footprint.produces payload) :
    Closable footprint turnId where
  closing := hclosing
  results := fun _ _ => hproduces _ (.inl ⟨_, _, rfl⟩)
  effects := fun row => hproduces _ (.inr ⟨row, rfl⟩)

theorem rollsBack_finishTurn {status : TurnStatus} {error stopReason : Option String} :
    RollsBack rollback (finishTurnWithStopReason world turnId status error stopReason) :=
  RollsBack.after rollback_rollback (undone_expect rollback_self _ _)
    fun _ => rollsBack_transaction _

theorem finishTurn_reaches {status : TurnStatus} {error stopReason : Option String}
    (hclosable : Closable footprint turnId)
    (hproduces : ∀ payload, terminalEvent turnId error stopReason status = some payload →
      footprint.produces payload) :
    Preserves (Reaches world footprint)
      (finishTurnWithStopReason world turnId status error stopReason) := by
  intro store hkeyed
  refine moves_of_rollsBack rollsBack_finishTurn ?_
  refine ensures_mono (ensures_finishTurn hclosable hkeyed hproduces) ?_
  rintro _ store' (⟨rfl, -⟩ | ⟨_, _, _, _, hfinished⟩)
  · exact .refl
  · exact hfinished.moves

theorem recordTurnHarness_reaches {harness definitionHash : String} {version : Option String}
    (hproduces : ∀ provenance, footprint.produces (.turnStarted turnId provenance)) :
    Preserves (Reaches world footprint)
      (recordTurnHarness world turnId harness definitionHash version) := by
  refine Preserves.then (reaches_require _ _) fun _ => reaches_transaction fun store _ => ?_
  simp only [ensures_bind, ensures_select, ensures_expect]
  intro row _
  cases row.turn.harness with
  | some existing =>
      simp only [ensures_require]
      exact fun _ => .refl
  | none =>
      simp only [ensures_bind, ensures_pure, appendSessionEvent]
      exact ensures_record trivial (hproduces _) .refl

theorem appendAssistantResponse_reaches {response : AssistantResponse} {calls : List ToolCall}
    (hresponse : ∀ entryId,
      footprint.produces (.assistantResponseRecorded turnId entryId response))
    (hcalls : ∀ call ∈ calls, ∀ entryId,
      footprint.produces (.toolCallRequested turnId entryId call)) :
    Preserves (Reaches world footprint)
      (appendAssistantResponseWithToolCalls world sessionId turnId response calls) := by
  refine Preserves.then (reaches_transaction fun store _ => ?_) fun entry =>
    Preserves.then pruneClientEvents_reaches fun _ => reaches_pure entry
  simp only [ensures_bind, ensures_validateActiveTurn, ensures_turnActor, ensures_newId,
    ensures_selectEntry, ensures_pure]
  intro hactive actor _
  refine ensures_mono (ensures_appendSessionEvent hactive (hresponse _)) ?_
  intro event first hrecorded entry _
  refine ensures_mono (ensures_each (fun _ store' => Moves world footprint store store' ∧
    store'.projection.isActiveTurn sessionId turnId = true)
    ⟨.trans (.single (.drew store _)) hrecorded.moves, hrecorded.active rfl hactive⟩ ?_)
    fun _ _ h => h.1
  rintro done call rest store' hitems ⟨hmoves, hactive'⟩
  simp only [ensures_bind, ensures_newId, ensures_pure]
  refine ensures_mono (ensures_appendSessionEvent hactive'
    (hcalls call (by simp [hitems]) _)) ?_
  intro event' store'' hrecorded'
  exact ⟨(hmoves.tail (.drew store' _)).trans hrecorded'.moves, hrecorded'.active rfl hactive'⟩

/-- Recovery ends every Turn. -/
theorem ensures_recoverInterruptedWork {store : Store} (hkeyed : store.projection.Keyed)
    (hclosable : ∀ turnId, Closable footprint turnId)
    (hproduces : ∀ turnId reason, footprint.produces (.turnInterrupted turnId reason)) :
    ensures (recoverInterruptedWork world) store fun _ store' =>
      Moves world footprint store store' ∧
      ∀ row ∈ store'.projection.turns, row.turn.completedAt ≠ none := by
  simp only [recoverInterruptedWork, ensures_transaction, ensures_bind, ensures_modify,
    ensures_select]
  have hdropped : Moves world footprint store { store with
      clientEvents := store.clientEvents.filter fun row => !row.transient } :=
    .single (.delivered _ _ (.transientDropped store))
  refine ensures_mono (ensures_each (fun done store' => Moves world footprint store store' ∧
    (∀ row ∈ store'.projection.turns, row.turn.completedAt = none →
      row ∉ done ∧ row ∈ store.projection.turns) ∧
    ∀ row ∈ store.projection.turns, row.turn.completedAt = none → row ∉ done →
      row ∈ store'.projection.turns) ⟨hdropped, fun row hrow _ => ⟨List.not_mem_nil, hrow⟩,
    fun row hrow _ _ => hrow⟩ ?_) ?_
  · rintro done row rest store' hitems ⟨hmoves, hleft, hkept⟩
    have hmem : row ∈ store.projection.turns.filter fun row => row.turn.completedAt = none := by
      rw [hitems]
      simp
    simp only [List.mem_filter, decide_eq_true_eq] at hmem
    have hnodup := (hkeyed.turns.nodup).filter fun row => row.turn.completedAt = none
    rw [hitems] at hnodup
    have hnew : row ∉ done := fun hdone =>
      (List.nodup_append.mp hnodup).2.2 row hdone row (by simp) rfl
    have hkeyed' := hmoves.keyed hkeyed
    refine ensures_mono (ensures_interruptTurn (hclosable _) hkeyed' (hkept row hmem.1 hmem.2 hnew)
      hmem.2 (hproduces _)) ?_
    intro _ store'' hfinished
    obtain ⟨completedAt, hturns⟩ := hfinished.turns_eq rfl
    refine ⟨hmoves.trans hfinished.moves, ?_, ?_⟩
    · intro other hother hactive
      rw [hturns] at hother
      obtain ⟨old, hold, heq⟩ := Table.mem_updateWhere.mp hother
      by_cases hmatched : TurnRow.isActive row.turn.id old = true
      · simp [hmatched, ← heq, TurnRow.ended] at hactive
      · rw [if_neg hmatched] at heq
        subst heq
        obtain ⟨hout, hin⟩ := hleft old hold hactive
        refine ⟨?_, hin⟩
        simp only [List.mem_append, List.mem_singleton, not_or]
        refine ⟨hout, ?_⟩
        rintro rfl
        exact hmatched (by simp [TurnRow.isActive, hactive])
    · intro other hother hactive hout
      simp only [List.mem_append, List.mem_singleton, not_or] at hout
      rw [hturns]
      refine Table.mem_updateWhere.mpr ⟨other, hkept other hother hactive hout.1, ?_⟩
      have hunmatched : TurnRow.isActive row.turn.id other = false := by
        simp only [TurnRow.isActive, decide_eq_false_iff_not, not_and]
        intro hid _
        exact hout.2 (hkeyed.turns.eq_of_mem hother hmem.1 hid)
      simp [hunmatched]
  · rintro _ store' ⟨hmoves, hleft, -⟩
    refine ⟨hmoves, fun row hrow hactive => ?_⟩
    obtain ⟨hout, hin⟩ := hleft row hrow hactive
    exact hout (by simp [hin, hactive])

theorem recoverInterruptedWork_reaches (hclosable : ∀ turnId, Closable footprint turnId)
    (hproduces : ∀ turnId reason, footprint.produces (.turnInterrupted turnId reason)) :
    Preserves (Reaches world footprint) (recoverInterruptedWork world) :=
  fun _ hkeyed => moves_of_rollsBack (rollsBack_transaction _)
    (ensures_mono (ensures_recoverInterruptedWork hkeyed hclosable hproduces) fun _ _ h => h.1)

end Sessions

end Store

end Mews
