import Mews.Store.Changes
import Mews.Store.Moves

/-!
# Recording

What the shared steps of the commands do, each stated once: the draws and reads
as weakest preconditions, one lemma for recording a Session event, and one for
a journaled command.
-/

namespace Mews

open Protocol Tx

namespace Store

variable {world : World} {footprint : Footprint} {store store' : Store} {A : Type}

/-! ## Draws and reads -/

section

variable (post : A → Store → Prop)

@[simp] theorem ensures_newId {marker : String} (post : TaggedId marker → Store → Prop) :
    ensures (newId world) store post ↔
      post { uuid := world.uuid store.drawn } { store with drawn := store.drawn + 1 } := by
  simp [ensures, newId]

@[simp] theorem ensures_utcNow (post : DateTime → Store → Prop) :
    ensures (utcNow world) store post ↔
      post (world.now store.drawn) { store with drawn := store.drawn + 1 } := by
  simp [ensures, utcNow]

@[simp] theorem ensures_newSecret (post : String → Store → Prop) :
    ensures (newSecret world) store post ↔
      post (world.secret store.drawn) { store with drawn := store.drawn + 1 } := by
  simp [ensures, newSecret]

@[simp] theorem ensures_select (query : Projection → A) :
    ensures (select query) store post ↔ post (query store.projection) store := by
  simp [select]

@[simp] theorem ensures_invalidData (message : String) :
    ensures (invalidData message) store post := by
  simp [invalidData]

@[simp] theorem ensures_transaction (body : Action A) :
    ensures (transaction body) store post ↔ ensures body store post := by
  simp [transaction]

@[simp] theorem ensures_discard (action : Action A) (post : Unit → Store → Prop) :
    ensures (discard action) store post ↔ ensures action store fun _ store' => post () store' := by
  simp [discard]

theorem discard_snd (action : Action A) (store : Store) :
    (discard action store).2 = (action store).2 := by
  change (andThen action _ store).2 = _
  rw [andThen]
  cases action store with
  | mk outcome reached => cases outcome <;> rfl

@[simp] theorem ensures_validateActiveTurn (sessionId : SessionId) (turnId : TurnId)
    (post : Unit → Store → Prop) :
    ensures (validateActiveTurn sessionId turnId) store post ↔
      (store.projection.isActiveTurn sessionId turnId = true → post () store) := by
  simp [validateActiveTurn]

@[simp] theorem ensures_turnActor (sessionId : SessionId) (turnId : TurnId)
    (kind : EventActorKind) (post : EventActor → Store → Prop) :
    ensures (turnActor sessionId turnId kind) store post ↔
      ∀ actor, store.projection.turnActor sessionId turnId kind = .ok actor → post actor store := by
  simp [turnActor]

@[simp] theorem ensures_selectEntry (sessionId : SessionId) (entryId : MessageId)
    (post : SessionEntry → Store → Prop) :
    ensures (selectEntry sessionId entryId) store post ↔
      ∀ entry, store.projection.selectSessionEntry sessionId entryId = .ok entry →
        post entry store := by
  simp [selectEntry]

@[simp] theorem ensures_session (sessionId : SessionId) (post : Session → Store → Prop) :
    ensures (session sessionId) store post ↔
      ∀ found, store.projection.findSession sessionId = some found → post found store := by
  simp [session]

end

/-! ## Session events -/

/-- A Session event has been recorded and projected. -/
structure Recorded (world : World) (footprint : Footprint) (store : Store)
    (sessionId : SessionId) (payload : JournalEvent) (correlationId : Option String)
    (event : JournalEntry) (store' : Store) : Prop where
  moves : Moves world footprint store store'
  payload_eq : event.payload = payload
  subject_eq : event.subject = .session sessionId
  correlation_eq : event.correlationId =
    (correlationId <|> payload.payloadTurnId.map (·.asStr))
  journal_eq : store'.journalEntries = store.journalEntries ++ [event]
  projects : ∃ delivery,
    store.projection.projectSession world event = .ok (store'.projection, delivery)
  consumers_eq : store'.clientConsumers = store.clientConsumers
  subscriptions_eq : store'.clientSubscriptions = store.clientSubscriptions
  receipts_eq : store'.commandReceipts = store.commandReceipts

/-- Applying a committed Session entry projects it and publishes its delivery. -/
theorem ensures_applySessionJournalEntry {event : JournalEntry} {sessionId : SessionId}
    (hsubject : event.subject = .session sessionId) :
    ensures (applySessionJournalEntry world event) store fun _ store' =>
      ∃ tables delivery,
        store.projection.projectSession world event = .ok (tables, delivery) ∧
        (∀ other ∈ store.clientEvents, delivery ≠ none → other.body.id ≠ event.id) ∧
        (∀ sent ∈ delivery, Deliverable world tables sessionId event sent) ∧
        store' = publish { store with projection := tables } sessionId event delivery := by
  simp only [applySessionJournalEntry, ensures_bind, ensures_reads, ensures_lift]
  rintro ⟨tables, delivery⟩ hproject
  simp only [ensures_modify]
  cases delivery with
  | none =>
      simp only [ensures_pure]
      exact ⟨tables, none, hproject, by simp, by simp, rfl⟩
  | some sent =>
      simp only [appendDurableClientEvent, journalSessionId, hsubject, ensures_bind, ensures_lift,
        ensures_select, insertClientEvent, ensures_reads, ensures_require, ensures_modify,
        Except.ok.injEq, forall_eq', id_eq]
      intro _ hvalid hid _ hsession hentry _
      refine ⟨tables, some sent, hproject, fun other hother _ => hid other hother, ?_, rfl⟩
      rintro _ ⟨⟩
      exact ⟨hvalid, hsession, hentry⟩

theorem ensures_insertEntry {commandId : Option CommandId} {subject : JournalSubject}
    {recordedAt : DateTime} {entry : NewJournalEntry} {post : JournalEntry → Store → Prop}
    (hpost : ∀ committed : JournalEntry,
      committed.id = entry.id → committed.position = store.lastPosition + 1 →
      committed.subject = subject → committed.correlationId = entry.correlationId →
      committed.payload = entry.payload → committed.recordedAt = recordedAt →
      (∀ other ∈ store.journalEntries, other.id ≠ committed.id) →
      committed.validate = .ok () →
      post committed { store with journalEntries := store.journalEntries ++ [committed] }) :
    ensures (insertEntry commandId subject recordedAt entry) store post := by
  simp only [insertEntry, ensures_bind, ensures_reads, ensures_require, ensures_modify,
    ensures_lift, ensures_pure, id_eq]
  intro hid _ hvalid
  refine hpost _ rfl rfl rfl rfl rfl rfl hid ?_
  generalize JournalEntry.validate _ = outcome at hvalid ⊢
  cases outcome <;> simp_all [Except.mapError]

theorem ensures_appendSessionEventCorrelated {sessionId : SessionId} {actor : EventActor}
    {payload : JournalEvent} {correlationId : Option String}
    (hlawful : Lawful footprint.closing store.projection sessionId payload)
    (hproduces : footprint.produces payload) :
    ensures (appendSessionEventCorrelated world sessionId actor payload correlationId) store
      (Recorded world footprint store sessionId payload correlationId) := by
  simp only [appendSessionEventCorrelated, recordSessionEventCorrelated, recordJournalEntry,
    ensures_bind, ensures_newId, ensures_lift, ensures_utcNow]
  intro _ _
  refine ensures_insertEntry ?_
  intro event hid hposition hsubject hcorrelation hpayload _ hfreshId _
  refine ensures_mono (ensures_applySessionJournalEntry hsubject) ?_
  rintro _ _ ⟨tables, delivery, hproject, hfresh, hdeliver, rfl⟩
  simp only [ensures_pure]
  refine
    { moves := ?_
      payload_eq := hpayload
      subject_eq := hsubject
      correlation_eq := hcorrelation
      journal_eq := by simp
      projects := ⟨delivery, by simpa using hproject⟩
      consumers_eq := by simp
      subscriptions_eq := by simp
      receipts_eq := by simp }
  refine .tail (.single (.drew store (store.drawn + 1 + 1))) ?_
  exact .projected _ sessionId event tables delivery hsubject hfreshId hposition
    (by rwa [hpayload]) (by rwa [hpayload]) hproject hfresh hdeliver

theorem ensures_appendSessionEvent {sessionId : SessionId} {actor : EventActor}
    {payload : JournalEvent}
    (hlawful : Lawful footprint.closing store.projection sessionId payload)
    (hproduces : footprint.produces payload) :
    ensures (appendSessionEvent world sessionId actor payload) store
      (Recorded world footprint store sessionId payload none) :=
  ensures_appendSessionEventCorrelated hlawful hproduces

/-! ## Journaled commands -/

/-- The payloads each aggregate projection acts on. -/
def isAgentPayload : JournalEvent → Bool
  | .agentCreated .. | .agentRevisionCreated .. | .agentRenamed .. | .agentArchived => true
  | _ => false

def isHostPayload : JournalEvent → Bool
  | .hostEnrolled .. | .hostRevoked .. | .hostInvitationCreated ..
  | .hostInvitationConsumed .. => true
  | _ => false

def isInstallationPayload : JournalEvent → Bool
  | .installationCreated .. | .relayChanged .. | .providerDefaultsChanged ..
  | .hubChanged .. => true
  | _ => false

theorem projectAggregate_of_agent {event : JournalEntry}
    (hpayload : isAgentPayload event.payload = true) (tables : Projection) :
    tables.projectAggregate event = tables.projectAgent event := by
  have hhost : ∀ tables : Projection, tables.projectHost event = .ok tables := by
    intro tables
    cases h : event.payload <;> simp_all [Projection.projectHost, isAgentPayload]
  have hinstallation : ∀ tables : Projection, tables.projectInstallation event = .ok tables := by
    intro tables
    cases h : event.payload <;> simp_all [Projection.projectInstallation, isAgentPayload]
  cases hagent : tables.projectAgent event <;>
    simp [Projection.projectAggregate, hagent, hhost, hinstallation, bind, Except.bind]

theorem projectAggregate_of_host {event : JournalEntry}
    (hpayload : isHostPayload event.payload = true) (tables : Projection) :
    tables.projectAggregate event = tables.projectHost event := by
  have hagent : ∀ tables : Projection, tables.projectAgent event = .ok tables := by
    intro tables
    cases h : event.payload <;> simp_all [Projection.projectAgent, isHostPayload]
  have hinstallation : ∀ tables : Projection, tables.projectInstallation event = .ok tables := by
    intro tables
    cases h : event.payload <;> simp_all [Projection.projectInstallation, isHostPayload]
  cases hhost : tables.projectHost event <;>
    simp [Projection.projectAggregate, hagent, hhost, hinstallation, bind, Except.bind]

theorem projectAggregate_of_installation {event : JournalEntry}
    (hpayload : isInstallationPayload event.payload = true) (tables : Projection) :
    tables.projectAggregate event = tables.projectInstallation event := by
  have hagent : ∀ tables : Projection, tables.projectAgent event = .ok tables := by
    intro tables
    cases h : event.payload <;> simp_all [Projection.projectAgent, isInstallationPayload]
  have hhost : ∀ tables : Projection, tables.projectHost event = .ok tables := by
    intro tables
    cases h : event.payload <;> simp_all [Projection.projectHost, isInstallationPayload]
  simp [Projection.projectAggregate, hagent, hhost, bind, Except.bind]

/-- Two projections that agree on every entry of a batch fold it alike. -/
theorem foldlM_congr {project project' : Projection → JournalEntry → Except StoreError Projection}
    {events : List JournalEntry}
    (hevents : ∀ event ∈ events, ∀ tables, project tables event = project' tables event)
    (tables : Projection) : events.foldlM project tables = events.foldlM project' tables := by
  induction events generalizing tables with
  | nil => rfl
  | cons event events ih =>
      rw [List.foldlM_cons, List.foldlM_cons, hevents event (by simp)]
      exact bind_congr fun tables' => ih (fun event hevent => hevents event (by simp [hevent])) tables'

theorem ensures_applyEvents
    {project : Projection → JournalEntry → Except StoreError Projection}
    {events : List JournalEntry} :
    ensures (applyEvents project events) store fun _ store' =>
      ∃ tables, events.foldlM project store.projection = .ok tables ∧
        store' = { store with projection := tables } := by
  rw [applyEvents]
  refine ensures_mono (ensures_each (fun done store' => ∃ tables,
      done.foldlM project store.projection = .ok tables ∧
      store' = { store with projection := tables }) ⟨store.projection, rfl, rfl⟩ ?_) ?_
  · rintro done event rest _ _ ⟨tables, hdone, rfl⟩
    simp only [ensures_bind, ensures_select, ensures_lift, ensures_modify]
    intro tables' hproject
    refine ⟨tables', ?_, rfl⟩
    rw [List.foldlM_append, hdone]
    simp [bind, Except.bind, hproject, pure, Except.pure]
  · exact fun _ _ h => h

/-- The entries of a command, as they were committed. -/
structure Inserted (store : Store) (items : List (JournalSubject × NewJournalEntry))
    (committed : List JournalEntry) : Prop where
  payloads : committed.map (·.payload) = items.map (·.2.payload)
  subjects : committed.map (·.subject) = items.map (·.1)
  correlations : committed.map (·.correlationId) = items.map (·.2.correlationId)
  positions : committed.map (·.position) = List.range' (store.lastPosition + 1) items.length
  fresh : ∀ entry ∈ committed, ∀ other ∈ store.journalEntries, other.id ≠ entry.id
  nodup : (committed.map (·.id)).Nodup
  valid : ∀ entry ∈ committed, entry.validate = .ok ()

theorem ensures_insertEntries {commandId : CommandId} {recordedAt : DateTime} :
    ∀ (items : List (JournalSubject × NewJournalEntry)) (store : Store),
      ensures (insertEntries commandId recordedAt items) store fun committed store' =>
        store' = { store with journalEntries := store.journalEntries ++ committed } ∧
        Inserted store items committed := by
  intro items
  induction items with
  | nil =>
      intro store
      simp only [insertEntries, ensures_pure]
      exact ⟨by simp, by constructor <;> simp⟩
  | cons item rest ih =>
      intro store
      obtain ⟨subject, entry⟩ := item
      simp only [insertEntries, ensures_bind]
      refine ensures_insertEntry ?_
      intro committed hid hposition hsubject hcorrelation hpayload _ hfresh hvalid
      refine ensures_mono (ih _) ?_
      rintro others _ ⟨rfl, hothers⟩
      simp only [ensures_pure]
      refine ⟨by simp, ?_⟩
      have hlast : lastPosition { store with
          journalEntries := store.journalEntries ++ [committed] } = committed.position := by
        simp [lastPosition]
      refine
        { payloads := by simp [hpayload, hothers.payloads]
          subjects := by simp [hsubject, hothers.subjects]
          correlations := by simp [hcorrelation, hothers.correlations]
          positions := ?_
          fresh := ?_
          nodup := ?_
          valid := ?_ }
      · have hpositions := hothers.positions
        rw [hlast, hposition] at hpositions
        simp [hposition, hpositions, List.range'_succ]
      · intro other hother
        rcases List.mem_cons.mp hother with rfl | hother
        · exact hfresh
        · exact fun earlier hearlier => hothers.fresh other hother earlier (by simp [hearlier])
      · rw [List.map_cons, List.nodup_cons]
        refine ⟨?_, hothers.nodup⟩
        intro hmem
        obtain ⟨other, hother, heq⟩ := List.mem_map.mp hmem
        exact hothers.fresh other hother committed (by simp) heq.symm
      · intro other hother
        rcases List.mem_cons.mp hother with rfl | hother
        · exact hvalid
        · exact hothers.valid other hother

/-- An append either replays the receipt of its command or commits its entries,
projects them and leaves a receipt. -/
theorem ensures_appendJournalEntriesIn {append : JournalAppend}
    {mutate : List JournalEntry → Action Unit} {post : AppendOutcome → Store → Prop}
    (hreplay : ∀ receipt, store.selectCommandReceipt append.commandId = some receipt →
      receipt.requestHash = append.requestHash → post (.replayed receipt) store)
    (hcommit : store.selectCommandReceipt append.commandId = none →
      ∀ committed, Inserted store append.items committed →
        ensures (mutate committed)
          { store with
            drawn := store.drawn + 1, journalEntries := store.journalEntries ++ committed }
          fun _ store' =>
            let receipt := append.receipt committed (world.now store.drawn)
            post (.appended committed receipt)
              { store' with commandReceipts := store'.commandReceipts ++ [receipt] }) :
    ensures (appendJournalEntriesIn world append mutate) store post := by
  simp only [appendJournalEntriesIn, ensures_bind, ensures_lift, ensures_reads]
  intro _ _
  cases hreceipt : store.selectCommandReceipt append.commandId with
  | some receipt =>
      simp only [ensures_bind, ensures_require, ensures_pure]
      exact hreplay receipt hreceipt
  | none =>
      simp only [ensures_bind, ensures_utcNow, ensures_modify, ensures_pure]
      refine ensures_mono (ensures_insertEntries _ _) ?_
      rintro committed _ ⟨rfl, hinserted⟩
      exact hcommit hreceipt committed
        { hinserted with positions := hinserted.positions, fresh := hinserted.fresh }

/-- The projection of a batch is the fold of the aggregate projection. -/
def ProjectsAggregates (payloads : List JournalEvent)
    (mutate : List JournalEntry → Action Unit) : Prop :=
  ∀ (committed : List JournalEntry) (store : Store), committed.map (·.payload) = payloads →
    ensures (mutate committed) store fun _ store' => ∃ tables,
      committed.foldlM Projection.projectAggregate store.projection = .ok tables ∧
      store' = { store with projection := tables }

/-- The receipt an append leaves for the retries of its command. -/
structure Receipted (store : Store) (commandId : CommandId) (requestHash : Digest)
    (result : CommandResult) (store' : Store) : Prop where
  found : ∃ receipt, store'.selectCommandReceipt commandId = some receipt ∧
    receipt.requestHash = requestHash ∧
    (store.selectCommandReceipt commandId = none → receipt.result = result)

theorem selectCommandReceipt_received {commandId : CommandId} {receipt : CommandReceipt}
    (hreceipts : store'.commandReceipts = store.commandReceipts ++ [receipt])
    (hnew : store.selectCommandReceipt commandId = none) (hcommand : receipt.commandId = commandId) :
    store'.selectCommandReceipt commandId = some receipt := by
  rw [selectCommandReceipt] at hnew ⊢
  rw [hreceipts, List.find?_append, hnew]
  simp [hcommand]

theorem ensures_appendAggregate {append : JournalAppend}
    {mutate : List JournalEntry → Action Unit} {name commandId : String}
    (hcommand : append.commandId = .operation name commandId)
    (hkind : ∀ item ∈ append.items, item.1.kind ≠ .session)
    (hlawful : ∀ item ∈ append.items, LawfulAggregate store.projection
      (append.items.map (·.2.payload)) item.2.payload)
    (hproduces : ∀ item ∈ append.items, footprint.produces item.2.payload)
    (hmutate : ProjectsAggregates (append.items.map (·.2.payload)) mutate) :
    ensures (appendJournalEntriesIn world append mutate) store fun _ store' =>
      Moves world footprint store store' ∧
      Receipted store append.commandId append.requestHash append.result store' := by
  refine ensures_appendJournalEntriesIn ?_ ?_
  · intro receipt hreceipt hhash
    exact ⟨.refl, ⟨receipt, hreceipt, hhash, fun hnone => by simp [hnone] at hreceipt⟩⟩
  intro hnew committed hinserted
  refine ensures_mono (hmutate committed _ hinserted.payloads) ?_
  rintro _ _ ⟨tables, hproject, rfl⟩
  have hsubject : ∀ entry ∈ committed, entry.subject.kind ≠ .session := by
    intro entry hentry
    have hmem : entry.subject ∈ append.items.map (·.1) := by
      rw [← hinserted.subjects]
      exact List.mem_map_of_mem hentry
    obtain ⟨item, hitem, heq⟩ := List.mem_map.mp hmem
    rw [← heq]
    exact hkind item hitem
  have hpayload : ∀ entry ∈ committed,
      LawfulAggregate store.projection (committed.map (·.payload)) entry.payload ∧
      footprint.produces entry.payload := by
    intro entry hentry
    have hmem : entry.payload ∈ append.items.map (·.2.payload) := by
      rw [← hinserted.payloads]
      exact List.mem_map_of_mem hentry
    obtain ⟨item, hitem, heq⟩ := List.mem_map.mp hmem
    rw [← heq, hinserted.payloads]
    exact ⟨hlawful item hitem, hproduces item hitem⟩
  have hlength : committed.length = append.items.length := by
    simpa using congrArg List.length hinserted.payloads
  constructor
  · refine .tail (.tail (.single (.drew store (store.drawn + 1)))
      (.aggregated _ committed tables hsubject hinserted.fresh hinserted.nodup
        (by rw [hlength]; exact hinserted.positions) (fun entry hentry => (hpayload entry hentry).1)
        (fun entry hentry => (hpayload entry hentry).2) hproject)) ?_
    refine .received _ _ hnew ?_
    intro sessionId key heq
    simp [JournalAppend.receipt, hcommand] at heq
  · exact ⟨append.receipt committed (world.now store.drawn),
      selectCommandReceipt_received rfl hnew rfl, rfl, fun _ => rfl⟩

theorem decorate_items (context : CommandContext) (append : JournalAppend) :
    (context.decorate append).items = append.items.map fun item =>
      (item.1, { item.2 with actor := context.actor, correlationId := context.correlationId }) := by
  simp [CommandContext.decorate, JournalAppend.items, List.flatMap_map, List.map_flatMap,
    Function.comp_def]

/-- An append under the actor and correlation of a command. -/
theorem ensures_appendDecorated {append : JournalAppend} {context : CommandContext}
    {mutate : List JournalEntry → Action Unit} {name commandId : String}
    (hcommand : append.commandId = .operation name commandId)
    (hkind : ∀ subject ∈ append.subjects, subject.subject.kind ≠ .session)
    (hlawful : ∀ subject ∈ append.subjects, ∀ entry ∈ subject.entries,
      LawfulAggregate store.projection
        (append.subjects.flatMap fun subject => subject.entries.map (·.payload)) entry.payload)
    (hproduces : ∀ subject ∈ append.subjects, ∀ entry ∈ subject.entries,
      footprint.produces entry.payload)
    (hmutate : ProjectsAggregates
      (append.subjects.flatMap fun subject => subject.entries.map (·.payload)) mutate) :
    ensures (appendJournalEntriesIn world (context.decorate append) mutate) store
      fun _ store' => Moves world footprint store store' ∧
        Receipted store append.commandId append.requestHash append.result store' := by
  have hpayloads : (context.decorate append).items.map (·.2.payload) =
      append.subjects.flatMap fun subject => subject.entries.map (·.payload) := by
    rw [decorate_items]
    simp [JournalAppend.items, List.map_flatMap, Function.comp_def]
  refine ensures_appendAggregate hcommand ?_ ?_ ?_ ?_
  · rw [decorate_items]
    simp only [JournalAppend.items, List.mem_map, List.mem_flatMap]
    rintro _ ⟨_, ⟨subject, hsubject, entry, hentry, rfl⟩, rfl⟩
    exact hkind subject hsubject
  · rw [hpayloads, decorate_items]
    simp only [JournalAppend.items, List.mem_map, List.mem_flatMap]
    rintro _ ⟨_, ⟨subject, hsubject, entry, hentry, rfl⟩, rfl⟩
    exact hlawful subject hsubject entry hentry
  · rw [decorate_items]
    simp only [JournalAppend.items, List.mem_map, List.mem_flatMap]
    rintro _ ⟨_, ⟨subject, hsubject, entry, hentry, rfl⟩, rfl⟩
    exact hproduces subject hsubject entry hentry
  · rw [hpayloads]
    exact hmutate

/-- What a decision owes the command it is made for; it only draws. -/
structure Decided {T : Type} (footprint : Footprint)
    (mutate : List JournalEntry → Action Unit) (store : Store)
    (decision : T × List JournalSubjectAppend) (store' : Store) : Prop where
  drew : ∃ drawn, store' = { store with drawn }
  kind : ∀ subject ∈ decision.2, subject.subject.kind ≠ .session
  lawful : ∀ subject ∈ decision.2, ∀ entry ∈ subject.entries,
    LawfulAggregate store.projection
      (decision.2.flatMap fun subject => subject.entries.map (·.payload)) entry.payload
  produces : ∀ subject ∈ decision.2, ∀ entry ∈ subject.entries, footprint.produces entry.payload
  projects : ProjectsAggregates
    (decision.2.flatMap fun subject => subject.entries.map (·.payload)) mutate

/-- What `transactCommand` leaves when it succeeds: the receipt holds the result
it returned, and a replay changes nothing. -/
structure Transacted {T : Type} [CommandOutput T] (world : World) (footprint : Footprint)
    (commandId : CommandId) (requestHash : Digest) (store : Store) (outcome : T × Bool)
    (store' : Store) : Prop where
  moves : Moves world footprint store store'
  receipt : ∃ receipt, store'.selectCommandReceipt commandId = some receipt ∧
    receipt.requestHash = requestHash ∧ CommandOutput.decode receipt.result = some outcome.1
  replayed : outcome.2 = true → store' = store

theorem ensures_transactCommand {T : Type} [CommandOutput T] {context : CommandContext}
    {operation : String} {requestHash : Digest}
    {decide : Action (T × List JournalSubjectAppend)}
    {mutate : List JournalEntry → Action Unit}
    (hdecide : ∀ store, ensures decide store (Decided footprint mutate store)) :
    ensures (transactCommand world context operation requestHash decide mutate) store
      (Transacted world footprint (context.operationId operation) requestHash store) := by
  simp only [transactCommand, ensures_transaction, ensures_bind, ensures_reads]
  cases hreceipt : store.selectCommandReceipt (context.operationId operation) with
  | some receipt =>
      simp only [ensures_bind, ensures_require, ensures_expect, ensures_pure]
      exact fun hhash result hresult => ⟨.refl, ⟨receipt, hreceipt, hhash, hresult⟩, fun _ => rfl⟩
  | none =>
      simp only [ensures_bind, ensures_pure]
      refine ensures_mono (hdecide store) ?_
      rintro ⟨result, subjects⟩ store' hdecided
      obtain ⟨drawn, rfl⟩ := hdecided.drew
      refine ensures_mono (ensures_appendDecorated rfl hdecided.kind hdecided.lawful
        hdecided.produces hdecided.projects) ?_
      rintro _ store'' ⟨hmoves, receipt, hfound, hhash, hresult⟩
      refine ⟨.trans (.single (.drew store drawn)) hmoves, ⟨receipt, hfound, hhash, ?_⟩, by simp⟩
      rw [hresult hreceipt]
      exact CommandOutput.decode_encode result

end Store

end Mews
