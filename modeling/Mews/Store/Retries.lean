import Mews.Store.Replay

/-!
# Retried commands

The commands that run through `transactCommand`, each cut into the checks its
caller makes first, its decision and its projection.  A receipt is never
removed, so whatever happens after a command has succeeded, its retries read
the receipt back.
-/

namespace Mews

open Protocol Tx

/-- What a public command hands to `transactCommand`, and the validation of its
arguments before that. -/
structure Transacting where
  Output : Type
  codec : CommandOutput Output
  context : CommandContext
  operation : String
  requestHash : Digest
  check : Except StoreError Unit
  decide : Store.Action (Output × List JournalSubjectAppend)
  mutate : List JournalEntry → Store.Action Unit

attribute [instance] Transacting.codec

namespace Transacting

variable (world : World) (command : Transacting)

def commandId : CommandId := command.context.operationId command.operation

/-- The public command: its checks, its transaction, and the result alone. -/
def call : Store.Action command.Output := do
  Tx.lift command.check
  let (result, _) ← Store.transactCommand world command.context command.operation
    command.requestHash command.decide command.mutate
  return result

end Transacting

namespace Store

variable {world : World} {store store' : Store}

/-- The commands that call `transact_command`. -/
def transacting (world : World) : StoreOp → Option Transacting
  | .createAgent context slug soul configToml authorHostId => some
      { Output := Agent × AgentRevision
        codec := inferInstance
        context
        operation := "create_agent"
        requestHash := world.requestHash (.createAgent slug soul configToml authorHostId)
        check := do validateSlug slug; validateDefinition world soul configToml
        decide := decideCreateAgent world slug soul configToml authorHostId
        mutate := applyAgentEvents }
  | .renameAgent context slug newSlug => some
      { Output := Agent
        codec := inferInstance
        context
        operation := "rename_agent"
        requestHash := world.requestHash (.renameAgent slug newSlug)
        check := validateSlug newSlug
        decide := decideRenameAgent world slug newSlug
        mutate := applyAgentEvents }
  | .rollbackAgentRename context slug newSlug => some
      { Output := Agent
        codec := inferInstance
        context
        operation := "rollback_agent_rename"
        requestHash := world.requestHash (.renameAgent slug newSlug)
        check := validateSlug newSlug
        decide := decideRenameAgent world slug newSlug
        mutate := applyAgentEvents }
  | .archiveAgent context slug => some
      { Output := Unit
        codec := inferInstance
        context
        operation := "archive_agent"
        requestHash := world.requestHash (.archiveAgent slug)
        check := .ok ()
        decide := decideArchiveAgent world slug
        mutate := applyAgentEvents }
  | .updateAgent context agentId expectedRevision soul configToml authorHostId => some
      { Output := AgentRevision
        codec := inferInstance
        context
        operation := "update_agent"
        requestHash := world.requestHash
          (.updateAgent agentId expectedRevision soul configToml authorHostId)
        check := validateDefinition world soul configToml
        decide := decideUpdateAgent world agentId expectedRevision soul configToml authorHostId
        mutate := applyAgentEvents }
  | .revokeHost context id => some
      { Output := Unit
        codec := inferInstance
        context
        operation := "revoke_host"
        requestHash := world.requestHash (.revokeHost id)
        check := .ok ()
        decide := decideRevokeHost world id
        mutate := applyHostEvents }
  | .consumeInvitation context invitationId secret name publicKey noisePublicKey relayUrl => some
      { Output := Host
        codec := inferInstance
        context
        operation := "consume_invitation"
        requestHash := world.requestHash (.consumeInvitation invitationId (world.secretHash secret)
          name publicKey noisePublicKey relayUrl)
        check := validateHostName name
        decide := decideConsumeInvitation world invitationId secret name publicKey noisePublicKey
          relayUrl
        mutate := applyHostEvents }
  | .setDefaultModel context model => some
      { Output := Unit
        codec := inferInstance
        context
        operation := "set_default_model"
        requestHash := world.requestHash (.setDefaultModel model)
        check := .ok ()
        decide := decideProviderDefaults world fun settings => { settings with model := some model }
        mutate := applyInstallationEvents }
  | .setDefaultReasoning context reasoning => some
      { Output := Unit
        codec := inferInstance
        context
        operation := "set_default_reasoning"
        requestHash := world.requestHash (.setDefaultReasoning reasoning)
        check := .ok ()
        decide := decideProviderDefaults world fun settings => { settings with reasoning }
        mutate := applyInstallationEvents }
  | .moveHub context expected target => some
      { Output := Installation
        codec := inferInstance
        context
        operation := "move_hub"
        requestHash := world.requestHash (.moveHub expected target)
        check := .ok ()
        decide := decideMoveHub world expected target
        mutate := applyInstallationEvents }
  | _ => none

theorem exec_eq_call {op : StoreOp} {command : Transacting}
    (hcommand : transacting world op = some command) :
    exec world op = discard (command.call world) := by
  cases op with
  | createAgent context slug soul configToml authorHostId =>
      cases hcommand
      simp only [exec, createAgent, discard, Transacting.call, lift_bind, bind_assoc, pure_bind]
  | renameAgent context slug newSlug =>
      cases hcommand
      simp only [exec, renameAgent, renameAgentWithCommand, discard, Transacting.call, bind_assoc,
        pure_bind]
  | rollbackAgentRename context slug newSlug =>
      cases hcommand
      simp only [exec, rollbackAgentRename, renameAgentWithCommand, discard, Transacting.call,
        bind_assoc, pure_bind]
  | archiveAgent context slug =>
      cases hcommand
      simp only [exec, archiveAgent, discard, Transacting.call, lift_ok, bind_assoc, pure_bind]
  | updateAgent context agentId expectedRevision soul configToml authorHostId =>
      cases hcommand
      simp only [exec, updateAgent, discard, Transacting.call, bind_assoc, pure_bind]
  | revokeHost context id =>
      cases hcommand
      simp only [exec, revokeHost, discard, Transacting.call, lift_ok, bind_assoc, pure_bind]
  | consumeInvitation context invitationId secret name publicKey noisePublicKey relayUrl =>
      cases hcommand
      simp only [exec, consumeInvitation, discard, Transacting.call, bind_assoc, pure_bind]
  | setDefaultModel context model =>
      cases hcommand
      simp only [exec, setDefaultModel, setProviderDefaults, discard, Transacting.call, lift_ok, bind_assoc, pure_bind]
  | setDefaultReasoning context reasoning =>
      cases hcommand
      simp only [exec, setDefaultReasoning, setProviderDefaults, discard, Transacting.call, lift_ok, bind_assoc, pure_bind]
  | moveHub context expected target =>
      cases hcommand
      simp only [exec, moveHub, discard, Transacting.call, lift_ok, bind_assoc, pure_bind]
  | _ => cases hcommand

theorem ensures_decide {op : StoreOp} {command : Transacting}
    (hcommand : transacting world op = some command) (store : Store) :
    ensures command.decide store (Decided Footprint.unrestricted command.mutate store) := by
  cases op with
  | createAgent context slug soul configToml authorHostId =>
      cases hcommand
      exact ensures_decideCreateAgent fun _ _ => trivial
  | renameAgent context slug newSlug =>
      cases hcommand
      exact ensures_decideRenameAgent trivial
  | rollbackAgentRename context slug newSlug =>
      cases hcommand
      exact ensures_decideRenameAgent trivial
  | archiveAgent context slug =>
      cases hcommand
      exact ensures_decideArchiveAgent trivial
  | updateAgent context agentId expectedRevision soul configToml authorHostId =>
      cases hcommand
      exact ensures_decideUpdateAgent fun _ => trivial
  | revokeHost context id =>
      cases hcommand
      exact ensures_decideRevokeHost trivial
  | consumeInvitation context invitationId secret name publicKey noisePublicKey relayUrl =>
      cases hcommand
      exact ensures_decideConsumeInvitation (fun _ => trivial) fun _ => trivial
  | setDefaultModel context model =>
      cases hcommand
      exact ensures_decideProviderDefaults fun _ => trivial
  | setDefaultReasoning context reasoning =>
      cases hcommand
      exact ensures_decideProviderDefaults fun _ => trivial
  | moveHub context expected target =>
      cases hcommand
      exact ensures_decideMoveHub fun _ => trivial
  | _ => cases hcommand

/-! ## Receipts -/

theorem Move.receipt_kept {footprint : Footprint} {commandId : CommandId} {receipt : CommandReceipt}
    (hmove : Move world footprint store store')
    (hfound : store.selectCommandReceipt commandId = some receipt) :
    store'.selectCommandReceipt commandId = some receipt := by
  cases hmove with
  | projected =>
      rw [selectCommandReceipt, publish_commandReceipts]
      exact hfound
  | received added =>
      rw [selectCommandReceipt] at hfound ⊢
      rw [List.find?_append, hfound]
      rfl
  | delivered _ hmove =>
      rw [selectCommandReceipt, hmove.keeps.2.2]
      exact hfound
  | _ => exact hfound

theorem Moves.receipt_kept {footprint : Footprint} {commandId : CommandId}
    {receipt : CommandReceipt} (hmoves : Moves world footprint store store')
    (hfound : store.selectCommandReceipt commandId = some receipt) :
    store'.selectCommandReceipt commandId = some receipt := by
  induction hmoves with
  | refl => exact hfound
  | tail _ hmove ih => exact hmove.receipt_kept ih

section Retry

variable {T : Type} [CommandOutput T] {context : CommandContext} {operation : String}
  {requestHash : Digest} {receipt : CommandReceipt}
  (decide : Action (T × List JournalSubjectAppend)) (mutate : List JournalEntry → Action Unit)

/-- A retry never gets as far as its decision. -/
theorem runs_transactCommand_replay {result : T}
    (hfound : store.selectCommandReceipt (context.operationId operation) = some receipt)
    (hhash : receipt.requestHash = requestHash)
    (hresult : CommandOutput.decode receipt.result = some result) :
    Runs (transactCommand world context operation requestHash decide mutate) store (result, true)
      store := by
  apply Runs.atomically
  apply Runs.bind (runs_reads _ store)
  rw [hfound]
  exact (runs_require hhash store).bind ((runs_expect hresult store).bind (runs_pure _ store))

theorem fails_transactCommand_conflict
    (hfound : store.selectCommandReceipt (context.operationId operation) = some receipt)
    (hhash : receipt.requestHash ≠ requestHash) :
    Fails (transactCommand world context operation requestHash decide mutate) store
      (.commandConflict (context.operationId operation)) store := by
  apply Fails.atomically
  apply Runs.fails (runs_reads _ store)
  rw [hfound]
  exact (fails_require hhash store).bind _

end Retry

/-! ## First runs -/

theorem isBlank_append (left right : String) :
    isBlank (left ++ right) = (isBlank left && isBlank right) := by
  simp [isBlank]

theorem isBlank_subjectId (subject : JournalSubject) : isBlank subject.id = false := by
  cases subject <;> simp only [JournalSubject.id, TaggedId.asStr, isBlank_append] <;>
    exact Bool.and_eq_false_imp.mpr fun h => absurd h (by decide)

theorem isBlank_operation (name commandId : String) :
    isBlank (CommandId.operation name commandId).asStr = false := by
  simp only [CommandId.asStr, isBlank_append]
  rw [show isBlank ":" = false by decide]
  simp

/-- An append of one event by an application command passes the checks of the
journal as soon as the event fits its subject. -/
theorem validateAppend_one {append : JournalAppend} {name commandId : String}
    {subject : JournalSubject} {entry : NewJournalEntry}
    (hcommand : append.commandId = .operation name commandId)
    (hsubjects : append.subjects = [{ subject, entries := [entry] }]) :
    validateAppend append = .ok () ↔ validateNewEntry subject entry = .ok () := by
  simp [validateAppend, hcommand, hsubjects, validateNonEmpty, isBlank_operation,
    isBlank_subjectId, demand]
  rfl

/-- The entry a command commits after the last one. -/
def committedAs (store : Store) (commandId : CommandId) (recordedAt : DateTime)
    (subject : JournalSubject) (entry : NewJournalEntry) : JournalEntry :=
  { id := entry.id, position := store.lastPosition + 1, subject, recordedAt
    actor := entry.actor, commandId := some commandId, correlationId := entry.correlationId
    payload := entry.payload }

theorem mapError_eq_ok {A E : Type} {outcome : Except E A} {wrap : E → StoreError} {value : A} :
    outcome.mapError wrap = .ok value ↔ outcome = .ok value := by
  cases outcome <;> simp [Except.mapError]

theorem validate_committedAs {commandId : CommandId} {subject : JournalSubject}
    {recordedAt : DateTime} {entry : NewJournalEntry}
    (hvalid : validateNewEntry subject entry = .ok ()) :
    (store.committedAs commandId recordedAt subject entry).validate = .ok () := by
  simp only [validateNewEntry, bind_eq_ok, exists_unit, demand_eq_ok, mapError_eq_ok] at hvalid
  rw [JournalEntry.validate, committedAs, if_pos hvalid.1.symm]
  exact hvalid.2

theorem runs_insertEntries_one {commandId : CommandId} {subject : JournalSubject}
    {recordedAt : DateTime} {entry : NewJournalEntry} {result : List JournalEntry} :
    Runs (insertEntries commandId recordedAt [(subject, entry)]) store result store' ↔
      let committed := store.committedAs commandId recordedAt subject entry
      (∀ other ∈ store.journalEntries, other.id ≠ entry.id) ∧ committed.validate = .ok () ∧
      result = [committed] ∧
      store' = { store with journalEntries := store.journalEntries ++ [committed] } := by
  simp only [insertEntries, insertEntry, runs_bind, runs_reads_iff, runs_require_iff,
    runs_modify_iff, runs_lift_iff, runs_pure_iff, mapError_eq_ok]
  constructor
  · rintro ⟨_, _, ⟨_, _, ⟨rfl, rfl⟩, _, _, ⟨hfresh, rfl⟩, _, _, rfl, _, _, ⟨hvalid, rfl⟩, rfl, rfl⟩,
      _, _, ⟨rfl, rfl⟩, rfl, rfl⟩
    exact ⟨hfresh, hvalid, rfl, rfl⟩
  · rintro ⟨hfresh, hvalid, rfl, rfl⟩
    exact ⟨_, _, ⟨_, _, ⟨rfl, rfl⟩, (), _, ⟨hfresh, rfl⟩, (), _, rfl, (), _, ⟨hvalid, rfl⟩, rfl, rfl⟩,
      _, _, ⟨rfl, rfl⟩, rfl, rfl⟩

theorem runs_applyEvents_one {project : Projection → JournalEntry → Except StoreError Projection}
    {event : JournalEntry} {result : Unit} :
    Runs (applyEvents project [event]) store result store' ↔
      ∃ tables, project store.projection event = .ok tables ∧
        store' = { store with projection := tables } := by
  cases result
  simp only [applyEvents, runs_each_cons, runs_bind, select, runs_reads_iff, runs_lift_iff,
    runs_modify_iff]
  constructor
  · rintro ⟨_, ⟨_, _, ⟨rfl, rfl⟩, tables, _, ⟨hproject, rfl⟩, rfl⟩, hnil⟩
    cases hnil
    exact ⟨tables, hproject, rfl⟩
  · rintro ⟨tables, hproject, rfl⟩
    exact ⟨_, ⟨_, _, ⟨rfl, rfl⟩, tables, _, ⟨hproject, rfl⟩, rfl⟩, rfl⟩

theorem runs_utcNow_iff {now : DateTime} :
    Runs (utcNow world) store now store' ↔
      world.now store.drawn = now ∧ { store with drawn := store.drawn + 1 } = store' := by
  simp [Runs, utcNow]

theorem runs_singleSubject_iff {subject : JournalSubject} {actor : EventActor}
    {payload : JournalEvent} {subjects : List JournalSubjectAppend} :
    Runs (singleSubject world subject actor payload) store subjects store' ↔
      subjects = [{ subject, entries := [⟨⟨world.uuid store.drawn⟩, actor, none, payload⟩] }] ∧
      store' = { store with drawn := store.drawn + 1 } := by
  have hrun : singleSubject world subject actor payload store =
      (.ok [{ subject, entries := [⟨⟨world.uuid store.drawn⟩, actor, none, payload⟩] }],
        { store with drawn := store.drawn + 1 }) := rfl
  rw [Runs, hrun, Prod.mk.injEq, Except.ok.injEq]
  exact and_congr eq_comm eq_comm

/-- What an append of one event leaves when its command has no receipt yet. -/
theorem runs_append_one {append : JournalAppend}
    {project : Projection → JournalEntry → Except StoreError Projection}
    {name commandId : String} {subject : JournalSubject} {entry : NewJournalEntry}
    {outcome : AppendOutcome} (hcommand : append.commandId = .operation name commandId)
    (hsubjects : append.subjects = [{ subject, entries := [entry] }])
    (hnone : store.selectCommandReceipt append.commandId = none) :
    Runs (appendJournalEntriesIn world append (applyEvents project)) store outcome store' ↔
      validateNewEntry subject entry = .ok () ∧
      (∀ other ∈ store.journalEntries, other.id ≠ entry.id) ∧
      ∃ committed tables,
        committed = store.committedAs append.commandId (world.now store.drawn) subject entry ∧
        project store.projection committed = .ok tables ∧
        outcome = .appended [committed] (append.receipt [committed] (world.now store.drawn)) ∧
        store' = { store with
          projection := tables, journalEntries := store.journalEntries ++ [committed]
          commandReceipts := store.commandReceipts ++
            [append.receipt [committed] (world.now store.drawn)]
          drawn := store.drawn + 1 } := by
  have hitems : append.items = [(subject, entry)] := by
    rw [JournalAppend.items, hsubjects]
    rfl
  simp only [appendJournalEntriesIn, runs_bind, runs_lift_iff, runs_reads_iff,
    validateAppend_one hcommand hsubjects]
  constructor
  · rintro ⟨_, _, ⟨hvalid, rfl⟩, _, _, ⟨rfl, rfl⟩, hrun⟩
    rw [hnone] at hrun
    simp only [runs_bind, runs_utcNow_iff, hitems, runs_insertEntries_one, runs_pure_iff,
      runs_modify_iff] at hrun
    obtain ⟨_, _, ⟨rfl, rfl⟩, _, _, ⟨hfresh, -, rfl, rfl⟩, _, _, hmutate, _, _, rfl, rfl, rfl⟩ := hrun
    obtain ⟨tables, hproject, rfl⟩ := runs_applyEvents_one.mp hmutate
    exact ⟨hvalid, hfresh, _, tables, rfl, hproject, rfl, rfl⟩
  · rintro ⟨hvalid, hfresh, committed, tables, rfl, hproject, rfl, rfl⟩
    refine ⟨(), _, ⟨hvalid, rfl⟩, _, _, ⟨rfl, rfl⟩, ?_⟩
    rw [hnone]
    simp only [runs_bind, runs_utcNow_iff, hitems, runs_insertEntries_one, runs_pure_iff,
      runs_modify_iff]
    exact ⟨_, _, ⟨rfl, rfl⟩, _, _, ⟨hfresh, validate_committedAs hvalid, rfl, rfl⟩, (), _,
      runs_applyEvents_one.mpr ⟨tables, hproject, rfl⟩, (), _, rfl, rfl, rfl⟩

/-- An append whose command has a receipt changes nothing. -/
theorem runs_append_again {append : JournalAppend} {mutate : List JournalEntry → Action Unit}
    {receipt : CommandReceipt} {outcome : AppendOutcome}
    (hrun : Runs (appendJournalEntriesIn world append mutate) store outcome store')
    (hfound : store.selectCommandReceipt append.commandId = some receipt) : store' = store := by
  simp only [appendJournalEntriesIn, runs_bind, runs_lift_iff, runs_reads_iff] at hrun
  obtain ⟨_, _, ⟨-, rfl⟩, _, _, ⟨rfl, rfl⟩, hrun⟩ := hrun
  rw [hfound] at hrun
  simp only [runs_bind, runs_require_iff, runs_pure_iff] at hrun
  obtain ⟨_, _, ⟨-, rfl⟩, -, rfl⟩ := hrun
  rfl

/-- A command without a receipt runs its decision and appends what it decides. -/
theorem runs_transactCommand_first {T : Type} [CommandOutput T] {context : CommandContext}
    {operation : String} {requestHash : Digest} {decide : Action (T × List JournalSubjectAppend)}
    {mutate : List JournalEntry → Action Unit} {outcome : T × Bool}
    (hnone : store.selectCommandReceipt (context.operationId operation) = none) :
    Runs (transactCommand world context operation requestHash decide mutate) store outcome store' ↔
      ∃ subjects decided appended, Runs decide store (outcome.1, subjects) decided ∧
        outcome.2 = false ∧
        Runs (appendJournalEntriesIn world (context.decorate
          { commandId := context.operationId operation, requestHash
            result := CommandOutput.encode outcome.1, subjects }) mutate) decided appended store' := by
  obtain ⟨result, replayed⟩ := outcome
  simp only [transactCommand, transaction, runs_atomically_iff, runs_bind, runs_reads_iff]
  constructor
  · rintro ⟨_, _, ⟨rfl, rfl⟩, hrun⟩
    rw [hnone] at hrun
    simp only [runs_bind, runs_pure_iff, Prod.mk.injEq] at hrun
    obtain ⟨⟨_, subjects⟩, decided, hdecide, appended, _, happend, ⟨rfl, rfl⟩, rfl⟩ := hrun
    exact ⟨subjects, decided, appended, hdecide, rfl, happend⟩
  · rintro ⟨subjects, decided, appended, hdecide, rfl, happend⟩
    refine ⟨_, _, ⟨rfl, rfl⟩, ?_⟩
    rw [hnone]
    exact hdecide.bind (happend.bind (runs_pure _ _))

/-- What a public command does the first time. -/
theorem Transacting.runs_call_first {command : Transacting} {result : command.Output}
    (hnone : store.selectCommandReceipt command.commandId = none) :
    Runs (command.call world) store result store' ↔
      command.check = .ok () ∧ ∃ subjects decided appended,
        Runs command.decide store (result, subjects) decided ∧
        Runs (appendJournalEntriesIn world (command.context.decorate
          { commandId := command.commandId, requestHash := command.requestHash
            result := CommandOutput.encode result, subjects }) command.mutate) decided appended
          store' := by
  simp only [Transacting.call, runs_bind, runs_lift_iff]
  constructor
  · rintro ⟨_, _, ⟨hcheck, rfl⟩, ⟨result', replayed⟩, reached, hrun, hpure⟩
    obtain ⟨rfl, rfl⟩ := runs_pure_iff.mp hpure
    obtain ⟨subjects, decided, appended, hdecide, -, happend⟩ :=
      (runs_transactCommand_first hnone).mp hrun
    exact ⟨hcheck, subjects, decided, appended, hdecide, happend⟩
  · rintro ⟨hcheck, subjects, decided, appended, hdecide, happend⟩
    have hrun : Runs (transactCommand world command.context command.operation command.requestHash
        command.decide command.mutate) store (result, false) store' :=
      (runs_transactCommand_first hnone).mpr ⟨subjects, decided, appended, hdecide, rfl, happend⟩
    exact ⟨(), store, ⟨hcheck, rfl⟩, _, _, hrun, runs_pure _ _⟩

/-- A command that has a receipt changes nothing, whatever it is asked. -/
theorem Transacting.runs_call_again {command : Transacting} {receipt : CommandReceipt}
    {result : command.Output}
    (hrun : Runs (command.call world) store result store')
    (hfound : store.selectCommandReceipt command.commandId = some receipt) : store' = store := by
  simp only [Transacting.call, transactCommand, transaction, runs_atomically_iff, runs_bind,
    runs_lift_iff, runs_reads_iff, runs_pure_iff] at hrun
  obtain ⟨_, _, ⟨-, rfl⟩, _, _, ⟨_, _, ⟨rfl, rfl⟩, hrun⟩, -, rfl⟩ := hrun
  rw [show store.selectCommandReceipt (command.context.operationId command.operation) = some receipt
    from hfound] at hrun
  simp only [runs_bind, runs_require_iff, runs_expect_iff, runs_pure_iff] at hrun
  obtain ⟨_, _, ⟨-, rfl⟩, _, _, ⟨-, rfl⟩, -, rfl⟩ := hrun
  rfl

/-! ## Idempotency -/

theorem rollsBack_call (command : Transacting) : RollsBack rollback (command.call world) := by
  apply RollsBack.after rollback_rollback (undone_lift rollback_self command.check)
  exact fun _ => RollsBack.returning (rollsBack_transaction _) _

theorem rollback_of_fails {A : Type} {action : Action A} (haction : RollsBack rollback action)
    {error : StoreError} (hrun : Fails action store error store') : store' = rollback store store' := by
  obtain ⟨reached, rfl⟩ := haction store error store' hrun
  rfl

/-- A successful call has passed its checks and run its transaction. -/
theorem Transacting.transacted_of_runs {op : StoreOp} {command : Transacting}
    (hcommand : transacting world op = some command) {result : command.Output}
    (hrun : Runs (command.call world) store result store') :
    command.check = .ok () ∧ ∃ replayed,
      Transacted world Footprint.unrestricted command.commandId command.requestHash store
        (result, replayed) store' := by
  have hcall : ensures (command.call world) store fun result store' =>
      command.check = .ok () ∧ ∃ replayed,
        Transacted world Footprint.unrestricted command.commandId command.requestHash store
          (result, replayed) store' := by
    simp only [Transacting.call, ensures_bind, ensures_lift, ensures_pure]
    intro _ hcheck
    refine ensures_mono (ensures_transactCommand (ensures_decide hcommand)) ?_
    exact fun outcome store' htransacted => ⟨hcheck, outcome.2, htransacted⟩
  exact hcall result store' hrun

/-- Commands are idempotent.  A command that fails leaves every table as it was.
The entries of one that succeeds follow the last position without a gap, and
after whatever comes later a retry under its command and request hash returns
its result and changes nothing, while another request hash is a conflict that
changes nothing either. -/
theorem command_retries (world : World) (ops : List StoreOp) (op : StoreOp)
    (command : Transacting) (hcommand : transacting world op = some command) :
    let store := run world ops
    exec world op = discard (command.call world) ∧
    (∀ error store', Fails (command.call world) store error store' →
      store' = rollback store store') ∧
    ∀ result store', Runs (command.call world) store result store' →
      (∃ entries, store'.journalEntries = store.journalEntries ++ entries ∧
        entries.map (·.position) = List.range' (store.lastPosition + 1) entries.length) ∧
      ∀ later, let final := runFrom world store' later
        Runs (command.call world) final result final ∧
        ∀ (context : CommandContext) (requestHash : Digest)
          (decide : Action (command.Output × List JournalSubjectAppend))
          (mutate : List JournalEntry → Action Unit),
          context.operationId command.operation = command.commandId →
          (requestHash = command.requestHash →
            Runs (transactCommand world context command.operation requestHash decide mutate) final
              (result, true) final) ∧
          (requestHash ≠ command.requestHash →
            Fails (transactCommand world context command.operation requestHash decide mutate) final
              (.commandConflict command.commandId) final) := by
  intro store
  refine ⟨exec_eq_call hcommand, fun _ _ => rollback_of_fails (rollsBack_call command), ?_⟩
  intro result store' hrun
  obtain ⟨hcheck, replayed, htransacted⟩ := Transacting.transacted_of_runs hcommand hrun
  have hkeyed : store'.projection.Keyed := htransacted.moves.keyed (run_keyed world ops)
  obtain ⟨receipt, hreceipt, hhash, hresult⟩ := htransacted.receipt
  refine ⟨?_, fun later => ?_⟩
  · obtain ⟨entries, hjournal, hpositions, -⟩ := htransacted.moves.journaled
    exact ⟨entries, hjournal, hpositions⟩
  have hfound : (runFrom world store' later).selectCommandReceipt command.commandId = some receipt :=
    (runFrom_moves world hkeyed later).receipt_kept hreceipt
  constructor
  · apply Runs.bind (runs_lift hcheck _)
    apply Runs.bind (runs_transactCommand_replay _ _ hfound hhash hresult)
    exact runs_pure result _
  · intro context requestHash decide mutate hcontext
    rw [← hcontext] at hfound ⊢
    constructor
    · rintro rfl
      exact runs_transactCommand_replay decide mutate hfound hhash hresult
    · intro hother
      exact fails_transactCommand_conflict decide mutate hfound fun heq => hother (heq ▸ hhash)

/-- An Agent created in a new installation, then the same command again after a
rename of that Agent. -/
theorem command_retries_createAgent :
    let context : CommandContext := { commandId := "1", actor := .system, correlationId := none }
    let ops : List StoreOp := [.initializeHub context "hub" "a" "b" "c"]
    let op : StoreOp := .createAgent context "mews" "soul" "native" ⟨"1"⟩
    ∃ command, transacting World.numbered op = some command ∧
      (command.call World.numbered (run World.numbered ops)).1.isOk = true ∧
      ∀ result store', Runs (command.call World.numbered) (run World.numbered ops) result store' →
        let final := runFrom World.numbered store' [.renameAgent context "mews" "other"]
        Runs (command.call World.numbered) final result final := by
  intro context ops op
  refine ⟨_, rfl, by decide +kernel, fun result store' hrun => ?_⟩
  exact (((command_retries World.numbered ops op _ rfl).2.2 result store' hrun).2 _).1

end Store

end Mews
