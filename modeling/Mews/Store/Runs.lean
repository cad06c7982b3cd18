import Mews.Store.AggregateMoves
import Mews.Store.SessionMoves

/-!
# Runs as chains of moves

Every command is a chain of moves within its footprint, and a command that may
terminate Turns leaves them ended or leaves the tables alone.
-/

namespace Mews

open Protocol Tx

namespace Store

variable {world : World}

theorem exec_reaches (op : StoreOp) : Preserves (Reaches world op.footprint) (exec world op) := by
  cases op with
  | scheduleEffect sessionId turnId effect =>
      exact reaches_discard (scheduleEffect_reaches fun _ => ⟨_, rfl⟩)
  | markEffectStarted sessionId turnId operationId => exact markEffectStarted_reaches rfl
  | startEffect sessionId turnId effect =>
      exact reaches_discard (startEffect_reaches (fun _ => ⟨_, .inl rfl⟩) fun _ => ⟨_, .inr rfl⟩)
  | finishEffect sessionId turnId operationId outcome => exact finishEffect_reaches rfl
  | startToolEffect sessionId turnId call =>
      exact reaches_discard (startEffect_reaches (fun _ => ⟨_, .inl rfl⟩) fun _ => ⟨_, .inr rfl⟩)
  | acceptTurnIdempotent sessionId key requestContent resolvedContent metadata source =>
      exact reaches_discard (acceptTurnIdempotent_reaches fun _ _ _ => ⟨_, _, _, rfl⟩)
  | bindAcpSession sessionId input =>
      exact reaches_discard (bindAcpSession_reaches fun _ => ⟨_, rfl⟩)
  | bindAcpSessionWithObservations sessionId input turnId =>
      exact bindAcpSessionWithObservations_reaches (fun _ => .inl ⟨_, rfl⟩) fun _ h => .inr h
  | markAcpContextDispatchedWithObservation sessionId turnId acpSessionId =>
      exact markAcpContextDispatched_reaches (fun _ _ _ _ _ => .inl ⟨_, _, _, _, _, rfl⟩)
        fun _ h => .inr h
  | createSession agentId hostId workingDirectory =>
      exact reaches_discard (createSession_reaches fun _ => ⟨_, rfl⟩)
  | setSessionModel sessionId model => exact reaches_discard (setSessionModel_reaches rfl)
  | appendMessage sessionId role content metadata source =>
      exact reaches_discard (appendMessage_reaches fun _ => ⟨_, rfl⟩)
  | appendMessageChecked sessionId expectedLeaf role content metadata source =>
      exact reaches_discard (appendMessageChecked_reaches fun _ => ⟨_, rfl⟩)
  | appendAssistantResponseWithToolCalls sessionId turnId response calls =>
      exact reaches_discard (appendAssistantResponse_reaches (fun _ => ⟨_, .inl rfl⟩)
        fun call hcall _ => ⟨_, .inr ⟨call, hcall, rfl⟩⟩)
  | appendToolResult sessionId turnId result =>
      exact reaches_discard (appendToolResult_reaches fun _ => ⟨_, rfl⟩)
  | completeToolExecution sessionId turnId result =>
      exact completeToolExecution_reaches fun _ => ⟨_, rfl⟩
  | appendToolRequested sessionId turnId call =>
      exact reaches_discard (appendToolRequested_reaches fun _ => ⟨_, rfl⟩)
  | appendReasoning sessionId turnId text visibility provenance idempotencyKey =>
      exact appendReasoning_reaches fun _ => ⟨_, rfl⟩
  | appendHarnessObservations sessionId turnId observations =>
      exact appendHarnessObservations_reaches fun _ h => h
  | appendContextCompaction sessionId summary firstKeptEntryId tokensBefore =>
      exact reaches_discard (appendContextCompaction_reaches fun _ => ⟨_, rfl⟩)
  | appendAcpObservation sessionId turnId acpSessionId eventKey observation =>
      exact appendAcpObservation_reaches fun _ h => h
  | setSessionLeafChecked sessionId expectedLeaf newLeaf =>
      exact reaches_discard (setSessionLeafChecked_reaches rfl)
  | finishTurnWithStopReason turnId status error stopReason =>
      exact finishTurn_reaches (closable_of_produces rfl fun _ h => .inl h) fun _ h => .inr h
  | recordTurnHarness turnId harness definitionHash version =>
      exact recordTurnHarness_reaches fun _ => ⟨_, rfl⟩
  | recoverInterruptedWork =>
      exact recoverInterruptedWork_reaches
        (fun turnId => closable_of_produces trivial fun _ h => ⟨turnId, .inl h⟩)
        fun turnId reason => ⟨turnId, .inr ⟨reason, rfl⟩⟩
  | emitRuntimeSignal sessionId turnId payload => exact emitRuntimeSignalWithKey_reaches
  | appendRuntimeSignal signal => exact appendRuntimeSignal_reaches
  | appendAcpObservationWithClientEvent sessionId turnId acpSessionId eventKey observation event =>
      exact appendAcpObservationWithClientEvent_reaches fun _ h => h
  | subscribeSession consumerId sessionId kind => exact subscribeSession_reaches
  | deleteConsumer consumerId => exact deleteConsumer_reaches fun _ => rfl
  | unsubscribeSession consumerId sessionId => exact unsubscribeSession_reaches ⟨rfl, rfl⟩
  | clientEvents consumerId limit => exact reaches_discard pollClientEvents_reaches
  | acknowledgeEvents consumerId checkpoint => exact acknowledgeEvents_reaches ⟨rfl, rfl⟩
  | pruneClientEvents => exact pruneClientEvents_reaches
  | createAgent context slug soul configToml authorHostId =>
      exact reaches_discard (createAgent_reaches fun _ _ => ⟨_, _, rfl⟩)
  | renameAgent context slug newSlug => exact reaches_discard (renameAgentWithCommand_reaches rfl)
  | rollbackAgentRename context slug newSlug =>
      exact reaches_discard (renameAgentWithCommand_reaches rfl)
  | archiveAgent context slug => exact archiveAgent_reaches rfl
  | updateAgent context agentId expectedRevision soul configToml authorHostId =>
      exact reaches_discard (updateAgent_reaches fun _ => ⟨_, rfl⟩)
  | revokeHost context id => exact revokeHost_reaches rfl
  | createInvitation context expiresAt =>
      exact reaches_discard (createInvitation_reaches fun _ _ => ⟨_, _, rfl⟩)
  | consumeInvitation context invitationId secret name publicKey noisePublicKey relayUrl =>
      exact reaches_discard
        (consumeInvitation_reaches (fun _ => .inl ⟨_, rfl⟩) fun _ => .inr ⟨_, rfl⟩)
  | initializeHub context hostName hostPublicKey hostNoisePublicKey installationPublicKey =>
      exact reaches_discard (initializeHub_reaches (fun _ => .inl ⟨_, rfl⟩) fun _ => .inr ⟨_, rfl⟩)
  | setRelayUrl context relayUrl => exact setRelayUrl_reaches fun _ => ⟨_, rfl⟩
  | setInstallationRelayUrl context relayUrl =>
      exact appendInstallationEvent_reaches rfl (fun _ => trivial) rfl
  | setDefaultModel context model => exact setProviderDefaults_reaches fun _ => ⟨_, rfl⟩
  | setDefaultReasoning context reasoning => exact setProviderDefaults_reaches fun _ => ⟨_, rfl⟩
  | moveHub context expected target => exact reaches_discard (moveHub_reaches fun _ => ⟨_, rfl⟩)

/-- A command is a chain of moves within its footprint. -/
theorem step_moves (world : World) {store : Store} (hkeyed : store.projection.Keyed) (op : StoreOp) :
    Moves world op.footprint store (step world store op) :=
  exec_reaches op store hkeyed

/-- The Turns a command set out to terminate have ended, or nothing happened to
the tables. -/
def Settled (op : StoreOp) (store store' : Store) : Prop :=
  store'.projection = store.projection ∨
    ∀ row ∈ store'.projection.turns, op.closing row.turn.id → row.turn.completedAt ≠ none

theorem step_settled (world : World) {store : Store} (hkeyed : store.projection.Keyed) (op : StoreOp) :
    Settled op store (step world store op) := by
  cases hop : op with
  | finishTurnWithStopReason turnId status error stopReason =>
      have hclosable : Closable op.footprint turnId := by
        rw [hop]
        exact closable_of_produces rfl fun _ h => .inl h
      have hproduces : ∀ payload, terminalEvent turnId error stopReason status = some payload →
          op.footprint.produces payload := by
        rw [hop]
        exact fun _ h => .inr h
      refine RollsBack.related _ rollsBack_finishTurn ?_ fun _ => .inl rfl
      refine ensures_mono (ensures_finishTurn hclosable hkeyed hproduces) ?_
      rintro _ store' (⟨rfl, -⟩ | ⟨sessionId, payload, hpayload, -, hfinished⟩)
      · exact .inl rfl
      · obtain ⟨_, _, hend⟩ := turnEnd_terminalEvent hpayload
        exact .inr fun row hrow hid => hfinished.completed hend hrow hid
  | recoverInterruptedWork =>
      have hclosable : ∀ turnId, Closable op.footprint turnId := by
        rw [hop]
        exact fun turnId => closable_of_produces trivial fun _ h => ⟨turnId, .inl h⟩
      have hproduces : ∀ turnId reason,
          op.footprint.produces (.turnInterrupted turnId reason) := by
        rw [hop]
        exact fun turnId reason => ⟨turnId, .inr ⟨reason, rfl⟩⟩
      refine RollsBack.related _ (rollsBack_transaction _) ?_ fun _ => .inl rfl
      refine ensures_mono (ensures_recoverInterruptedWork hkeyed hclosable hproduces) ?_
      exact fun _ _ h => .inr fun row hrow _ => h.2 row hrow
  | _ => exact .inr fun _ _ hclosing => hclosing.elim

theorem step_keyed {store : Store} (hkeyed : store.projection.Keyed) (op : StoreOp) :
    (step world store op).projection.Keyed :=
  (step_moves world hkeyed op).keyed hkeyed

/-- A run is a chain of moves. -/
theorem runFrom_moves (world : World) {store : Store} (hkeyed : store.projection.Keyed)
    (ops : List StoreOp) :
    Moves world Footprint.unrestricted store (runFrom world store ops) := by
  induction ops generalizing store with
  | nil => exact .refl
  | cons op ops ih =>
      exact (step_moves world hkeyed op).unrestricted.trans (ih (step_keyed hkeyed op))

theorem run_keyed (world : World) (ops : List StoreOp) : (run world ops).projection.Keyed :=
  run_invariant world (fun store => store.projection.Keyed) Projection.keyed_empty
    (fun _ op hkeyed => step_keyed hkeyed op) ops

end Store

end Mews
