import Mews.Store.Acceptance

/-!
# Where Turns come from and what ends them

Only an acceptance adds a Turn, and it says so to its caller; a Turn that was
finished has ended.
-/

namespace Mews

open Protocol Table Tx

def StoreOp.accepts : StoreOp → Bool
  | .acceptTurnIdempotent .. => true
  | _ => false

namespace Projection

variable {world : World} {tables tables' : Projection} {sessionId : SessionId}
  {event : JournalEntry} {delivery : Option Delivery}

def turnIds (tables : Projection) : List TurnId := tables.turns.map fun row => row.turn.id

theorem mem_turnIds {turnId : TurnId} :
    turnId ∈ tables.turnIds ↔ ∃ row ∈ tables.turns, row.turn.id = turnId :=
  List.mem_map

theorem turnIds_congr (hturns : tables'.turns = tables.turns) : tables'.turnIds = tables.turnIds := by
  rw [turnIds, hturns, turnIds]

/-- Only an accepted Turn adds a row. -/
theorem SessionChange.turnIds_eq
    (hchange : SessionChange world tables sessionId event tables' delivery)
    (hother : ∀ turnId agentRevision entryId content metadata source, event.payload ≠
      .turnAccepted turnId agentRevision entryId content metadata source) :
    tables'.turnIds = tables.turnIds := by
  cases hchange with
  | entryAppended _ _ _ _ _ _ _ _ hplaced => exact turnIds_congr hplaced.turns_eq
  | turnAccepted _ _ _ _ _ _ _ _ hpayload => exact absurd hpayload (hother _ _ _ _ _ _)
  | turnStarted _ _ _ _ _ _ hplaced =>
      rw [turnIds, hplaced.turns_eq]
      exact map_updateWhere fun _ => rfl
  | turnEnded _ _ _ _ _ _ _ _ _ hplaced =>
      rw [turnIds, hplaced.turns_eq]
      exact map_updateWhere fun _ => rfl
  | _ => rfl

end Projection

/-- Only an acceptance records an accepted Turn. -/
theorem StoreOp.accepts_of_produces {op : StoreOp} {turnId : TurnId} {agentRevision : Nat}
    {entryId : MessageId} {content : MessageContent} {metadata : Value} {source : MessageSource}
    (hproduces : op.produces (.turnAccepted turnId agentRevision entryId content metadata source)) :
    op.accepts = true := by
  cases op with
  | acceptTurnIdempotent => rfl
  | finishEffect | finishTurnWithStopReason | recoverInterruptedWork =>
      cases StoreOp.endsWork_of_produces rfl hproduces
  | _ => simp [StoreOp.produces, observationPayload] at hproduces

namespace Store

open Projection

variable {world : World} {store store' : Store} {request : TurnRequest}
  {resolved : MessageContent}

theorem Move.turnIds_eq {footprint : Footprint} (hmove : Move world footprint store store')
    (hother : ∀ turnId agentRevision entryId content metadata source, ¬footprint.produces
      (.turnAccepted turnId agentRevision entryId content metadata source)) :
    store'.projection.turnIds = store.projection.turnIds := by
  rcases hmove.session_tables with hsame | ⟨_, _, _, -, -, -, hproduces, hchange⟩
  · exact turnIds_congr hsame.turns_eq
  · apply hchange.turnIds_eq
    intro turnId agentRevision entryId content metadata source hpayload
    rw [hpayload] at hproduces
    exact hother _ _ _ _ _ _ hproduces

theorem Moves.turnIds_eq {footprint : Footprint} (hmoves : Moves world footprint store store')
    (hother : ∀ turnId agentRevision entryId content metadata source, ¬footprint.produces
      (.turnAccepted turnId agentRevision entryId content metadata source)) :
    store'.projection.turnIds = store.projection.turnIds := by
  induction hmoves with
  | refl => rfl
  | tail _ hmove ih => exact (hmove.turnIds_eq hother).trans ih

theorem step_turnIds (hkeyed : store.projection.Keyed) {op : StoreOp} (hother : op.accepts = false) :
    (step world store op).projection.turnIds = store.projection.turnIds := by
  apply (step_moves world hkeyed op).turnIds_eq
  intro _ _ _ _ _ _ hproduces
  rw [StoreOp.accepts_of_produces hproduces] at hother
  cases hother

theorem step_turnEnded (hlifecycle : store.projection.Lifecycle) {turnId : TurnId}
    (hended : store.projection.TurnEnded turnId) (op : StoreOp) :
    (step world store op).projection.TurnEnded turnId :=
  hended.advances (step_advances world hlifecycle op)

/-! ## Acceptance -/

/-- The only row an acceptance may add is the one its receipt names, and then
the receipt is new. -/
theorem ensures_acceptTurnIn_turnIds {sessionId : SessionId} {key : String}
    {requestContent resolvedContent : MessageContent} {metadata : Value} {source : MessageSource} :
    ensures (acceptTurnIn world sessionId key requestContent resolvedContent metadata source) store
      fun outcome store' => ∀ turnId ∈ store'.projection.turnIds,
        turnId ∈ store.projection.turnIds ∨
          outcome.wasReplayed = false ∧ ∃ entryId, outcome.receipt.result = .turn turnId entryId := by
  simp only [acceptTurnIn, ensures_bind, ensures_select, ensures_expect, ensures_newId]
  intro agentRevision _
  refine ensures_appendJournalEntriesIn ?_ ?_
  · exact fun _ _ _ turnId hmem => .inl hmem
  · intro _ committed hinserted
    obtain ⟨event, rfl, hpayload, hsubject, -⟩ := hinserted.of_turnAppend
    simp only [each, ensures_andThen, ensures_ret]
    refine ensures_mono (ensures_applySessionJournalEntry hsubject) ?_
    rintro _ _ ⟨tables, delivery, hproject, -, -, rfl⟩ turnId hmem
    obtain ⟨placed, entry, hplaced, -, htables, -⟩ :=
      (projectSession_change hsubject hproject).of_turnAccepted hpayload
    rw [publish_projection, htables, turnIds, List.map_append, hplaced.turns_eq] at hmem
    rcases List.mem_append.mp hmem with hmem | hmem
    · exact .inl hmem
    · obtain rfl := List.mem_singleton.mp hmem
      exact .inr ⟨rfl, _, rfl⟩

/-- An acceptance that adds a Turn returns it as created. -/
theorem Retryable.ensures_accept_turnIds (hretryable : store.Retryable) :
    ensures (request.accept world resolved) store fun outcome store' =>
      ∀ turnId ∈ store'.projection.turnIds, turnId ∈ store.projection.turnIds ∨
        outcome.1.id = turnId ∧ outcome.2.2 = true := by
  simp only [TurnRequest.accept, acceptTurnIdempotent, ensures_bind, ensures_lift,
    ensures_transaction, ensures_pure]
  intro _ _ _ _ outcome store' hrun
  obtain ⟨-, -, -, -, row, message, ⟨-, -, entry, -, hresult, -⟩, hload⟩ :=
    hretryable.acceptTurnIn_loads outcome store' hrun
  have hadded := ensures_acceptTurnIn_turnIds outcome store' hrun
  refine hload.ensures.mpr ?_
  intro turnId hmem
  refine (hadded turnId hmem).imp_right ?_
  rintro ⟨hreplayed, entryId, hresult'⟩
  rw [hresult', CommandResult.turn.injEq] at hresult
  exact ⟨hresult.1.symm, by rw [hreplayed]; rfl⟩

/-! ## Termination -/

theorem ensures_finishTurn_turnEnded (hkeyed : store.projection.Keyed) {turnId : TurnId}
    {status : TurnStatus} {error stopReason : Option String} :
    ensures (finishTurnWithStopReason world turnId status error stopReason) store
      fun _ store' => store'.projection.TurnEnded turnId := by
  have hclosable : Closable Footprint.unrestricted turnId :=
    closable_of_produces trivial fun _ _ => trivial
  refine ensures_mono (ensures_finishTurn hclosable hkeyed fun _ _ => trivial) ?_
  rintro _ store' (⟨rfl, hended⟩ | ⟨sessionId, payload, hpayload, hactive, hfinished⟩)
  · exact hended
  · obtain ⟨_, _, hend⟩ := turnEnd_terminalEvent hpayload
    exact hfinished.turnEnded hactive hend

end Store

end Mews
