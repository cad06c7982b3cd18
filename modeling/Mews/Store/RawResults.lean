import Mews.Protocol.Encoding
import Mews.Store.Retries

/-!
# Raw tool results

`complete_tool_execution` journals the result of a started call as it is.  It
looks at the call identifier of the result and at nothing else.
-/

namespace Mews

open Protocol Table Tx

namespace Store

variable {world : World} {store : Store} {sessionId : SessionId} {turnId : TurnId}

/-- The entry a raw result is journaled as. -/
def rawResultEntry (world : World) (store : Store) (sessionId : SessionId) (turnId : TurnId)
    (operationId : OperationId) (actor : EventActor) (result : ToolResult) : JournalEntry :=
  { id := ⟨world.uuid store.drawn⟩, position := store.lastPosition + 1
    subject := .session sessionId, recordedAt := world.now (store.drawn + 1), actor
    commandId := none, correlationId := some turnId.asStr
    payload := .toolExecutionCompleted operationId turnId result }

/-- A result for a started call of an active Turn is recorded, whatever it holds. -/
theorem step_completeToolExecution {row : EffectRow} {actor : EventActor} {result : ToolResult}
    (hactive : store.projection.isActiveTurn sessionId turnId = true)
    (hrow : (store.projection.effects.find? fun row => row.sessionId = sessionId ∧
      row.turnId = turnId ∧ row.callId = some result.callId ∧ row.status = .started) = some row)
    (hactor : store.projection.turnActor sessionId turnId .host = .ok actor)
    (hfresh : ∀ other ∈ store.journalEntries, other.id ≠ ⟨world.uuid store.drawn⟩)
    (hopen : store.projection.effects.countP
      (EffectRow.isOpenOf sessionId turnId row.operationId) = 1) :
    (step world store (.completeToolExecution sessionId turnId result)).journalEntries =
      store.journalEntries ++
        [rawResultEntry world store sessionId turnId row.operationId actor result] := by
  let entry := rawResultEntry world store sessionId turnId row.operationId actor result
  let inserted : Store := { store with
    drawn := store.drawn + 2, journalEntries := store.journalEntries ++ [entry] }
  let tables : Projection := { store.projection with
    effects := updateWhere (EffectRow.isOpenOf sessionId turnId row.operationId)
      (EffectRow.ended (Projection.completionStatus result) (some result) entry) store.projection.effects }
  have hproject : store.projection.projectSession world entry = .ok (tables, none) := by
    simp [Projection.projectSession, journalSessionId, entry, rawResultEntry,
      Projection.setEffectTerminal, updateOne, hopen, tables, bind, Except.bind, pure, Except.pure]
  have hinsert : Runs (recordSessionEventCorrelated world sessionId actor
      (.toolExecutionCompleted row.operationId turnId result) none) store entry inserted := by
    have hid : Runs (newId world) store (⟨world.uuid store.drawn⟩ : EventId)
        { store with drawn := store.drawn + 1 } := rfl
    have hnow : Runs (utcNow world) { store with drawn := store.drawn + 1 }
        (world.now (store.drawn + 1)) { store with drawn := store.drawn + 2 } := rfl
    refine hid.bind ((runs_lift rfl _).bind (hnow.bind ?_))
    refine (runs_reads _ _).bind ((runs_require hfresh _).bind ?_)
    exact (runs_modify _ _).bind ((runs_lift rfl _).bind rfl)
  have happly : Runs (applySessionJournalEntry world entry) inserted ()
      { inserted with projection := tables } :=
    (runs_reads _ _).bind ((runs_lift hproject _).bind ((runs_modify _ _).bind rfl))
  have happend : Runs (appendSessionEvent world sessionId actor
      (.toolExecutionCompleted row.operationId turnId result)) store entry
      { inserted with projection := tables } :=
    hinsert.bind (happly.bind rfl)
  have hvalidate : Runs (validateActiveTurn sessionId turnId) store () store :=
    (runs_reads _ _).bind (runs_require hactive _)
  have hsigned : Runs (turnActor sessionId turnId .host) store actor store :=
    (runs_reads _ _).bind (runs_lift hactor _)
  have hrun : Runs (completeToolExecution world sessionId turnId result) store ()
      { inserted with projection := tables } := by
    refine Runs.atomically (hvalidate.bind ?_)
    exact (runs_reads _ _).bind ((runs_expect hrow _).bind (hsigned.bind (happend.bind rfl)))
  rw [step, exec, hrun]

/-- A Turn up to a started tool call. -/
def startedCall : List StoreOp :=
  let context : CommandContext := { commandId := "1", actor := .system, correlationId := none }
  let source : MessageSource := { kind := .client, id := "cli", channelOrigin := none }
  [.initializeHub context "hub" "a" "b" "c", .createAgent context "mews" "soul" "native" ⟨"1"⟩,
    .createSession ⟨"7"⟩ ⟨"1"⟩ "/",
    .acceptTurnIdempotent ⟨"10"⟩ "key" (.text "hi") (.text "hi") .null source,
    .startToolEffect ⟨"10"⟩ ⟨"14"⟩
      { callId := "call", tool := "read", arguments := .null, thoughtSignature := none }]

def readResult (text : String) : ToolResult :=
  { callId := "call", tool := "read", result := .string text, isError := false, uncertain := false }

/-- The call returns `text`. -/
def completedCall (text : String) : List StoreOp :=
  startedCall ++ [.completeToolExecution ⟨"10"⟩ ⟨"14"⟩ (readResult text)]

/-- The entry of the raw result in the run above. -/
def completedEntry (text : String) : JournalEntry :=
  rawResultEntry World.numbered (run World.numbered startedCall) ⟨"10"⟩ ⟨"14"⟩ ⟨"18"⟩
    { kind := .host, id := some "hst_1" } (readResult text)

theorem startedCall_started :
    let store := run World.numbered startedCall
    store.projection.isActiveTurn ⟨"10"⟩ ⟨"14"⟩ = true ∧
    (store.projection.effects.find? fun row => row.sessionId = ⟨"10"⟩ ∧ row.turnId = ⟨"14"⟩ ∧
      row.callId = some "call" ∧ row.status = .started).map (·.operationId) = some ⟨"18"⟩ ∧
    store.projection.turnActor ⟨"10"⟩ ⟨"14"⟩ .host = .ok { kind := .host, id := some "hst_1" } ∧
    (∀ other ∈ store.journalEntries, other.id ≠ ⟨World.numbered.uuid store.drawn⟩) ∧
    store.projection.effects.countP (EffectRow.isOpenOf ⟨"10"⟩ ⟨"14"⟩ ⟨"18"⟩) = 1 := by
  decide +kernel

theorem completedCall_journal (text : String) :
    (run World.numbered (completedCall text)).journalEntries =
      (run World.numbered startedCall).journalEntries ++ [completedEntry text] := by
  have hstarted := startedCall_started
  rw [completedCall, run_append, completedEntry]
  generalize run World.numbered startedCall = store at hstarted ⊢
  obtain ⟨hactive, hfound, hactor, hfresh, hopen⟩ := hstarted
  obtain ⟨row, hrow, hoperation⟩ := Option.map_eq_some_iff.mp hfound
  rw [← hoperation] at hopen ⊢
  exact step_completeToolExecution hactive hrow hactor hfresh hopen

theorem textBytes_le_completedEntry (text : String) :
    textBytes text ≤ (completedEntry text).bytes := by
  have hresult : (readResult text).result.bytes ≤ (readResult text).bytes :=
    le_objectBytes "result" (by simp)
  have hpayload : (readResult text).bytes ≤ (completedEntry text).payload.bytes :=
    JournalEvent.field_le "result" (by simp [completedEntry, rawResultEntry, JournalEvent.fields])
  exact hresult.trans (hpayload.trans (completedEntry text).payload_le)

end Store

end Mews
