import Mews.Store.Runs

/-!
# Replaying the journal

The projected tables are the fold of the journal: a store with empty tables and
the same journal reaches them by projecting the committed entries in order.
-/

namespace Mews

open Protocol Tx

namespace Store

variable {world : World} {footprint : Footprint} {store store' : Store}

/-- Projects one committed entry through the projection of its subject. -/
def replayEntry (world : World) (event : JournalEntry) : Action Unit :=
  match event.subject with
  | .session _ => applySessionJournalEntry world event
  | _ => do
      applyAgentEvents [event]
      applyHostEvents [event]
      applyInstallationEvents [event]

def replay (world : World) (events : List JournalEntry) : Action Unit :=
  each events (replayEntry world)

/-- A new database that already holds the journal. -/
def withJournal (journalEntries : List JournalEntry) : Store :=
  { empty with journalEntries }

/-! ## One entry -/

theorem runs_applyEvents {project : Projection → JournalEntry → Except StoreError Projection}
    {event : JournalEntry} {tables : Projection}
    (hproject : project store.projection event = .ok tables) :
    Runs (applyEvents project [event]) store () { store with projection := tables } :=
  runs_each_singleton (.bind (runs_reads _ store)
    (.bind (runs_lift hproject store) (runs_modify _ store)))

theorem runs_replayEntry_aggregate {event : JournalEntry} {tables : Projection}
    (hsubject : event.subject.kind ≠ .session)
    (hproject : store.projection.projectAggregate event = .ok tables) :
    Runs (replayEntry world event) store () { store with projection := tables } := by
  simp only [Projection.projectAggregate, bind_eq_ok] at hproject
  obtain ⟨agents, hagent, hosts, hhost, hinstallation⟩ := hproject
  have hevents : Runs (do
      applyAgentEvents [event]
      applyHostEvents [event]
      applyInstallationEvents [event]) store () { store with projection := tables } :=
    .bind (runs_applyEvents hagent) (.bind (runs_applyEvents hhost) (runs_applyEvents hinstallation))
  cases hevent : event.subject with
  | session sessionId => simp [hevent, JournalSubject.kind] at hsubject
  | _ =>
      rw [replayEntry, hevent]
      exact hevents

/-- Replaying aggregate entries folds their projection. -/
theorem runs_replay_aggregates {events : List JournalEntry} {tables : Projection}
    (hsubject : ∀ event ∈ events, event.subject.kind ≠ .session)
    (hproject : events.foldlM Projection.projectAggregate store.projection = .ok tables) :
    Runs (replay world events) store () { store with projection := tables } := by
  induction events generalizing store with
  | nil =>
      cases hproject
      exact runs_pure () store
  | cons event events ih =>
      rw [List.foldlM_cons, bind_eq_ok] at hproject
      obtain ⟨middle, hevent, hevents⟩ := hproject
      refine runs_each_cons.mpr ⟨{ store with projection := middle },
        runs_replayEntry_aggregate (hsubject event (by simp)) hevent, ?_⟩
      exact ih (fun other hother => hsubject other (by simp [hother])) hevents

theorem runs_insertDurable {body : ClientEventBody} {entryId : Option MessageId}
    {event : JournalEntry} {position : Nat}
    (hfresh : ∀ other ∈ store.clientEvents, other.body.id ≠ body.id)
    (hsession : store.projection.sessionExists body.sessionId = true)
    (hentry : ∀ id ∈ entryId, ∃ other ∈ store.projection.timeline body.sessionId,
      other.entry.id = id)
    (hjournal : event ∈ store.journalEntries) :
    Runs (insertClientEvent body (.durable entryId event.id position)) store ()
      { store with
        clientEvents := store.clientEvents ++
          [⟨store.clientEventSequence + 1, body, .durable entryId event.id position⟩]
        clientEventSequence := store.clientEventSequence + 1 } := by
  refine .bind (runs_reads id store) ?_
  simp only [id_eq]
  refine .bind (runs_require hfresh store) (.bind (runs_require ?_ store)
    (.bind (runs_require hsession store) (.bind (runs_require hentry store)
      (.bind (runs_require ⟨event, hjournal, rfl⟩ store) (runs_modify _ store)))))
  simp [ClientEventRow.idempotencyKey]

theorem mem_publish_clientEvents {sessionId : SessionId} {event : JournalEntry}
    {delivery : Option Delivery} {row : ClientEventRow}
    (hrow : row ∈ (store.publish sessionId event delivery).clientEvents) :
    row ∈ store.clientEvents ∨ row.body.id = event.id := by
  cases delivery with
  | none => exact .inl hrow
  | some sent =>
      rcases List.mem_append.mp hrow with hrow | hrow
      · exact .inl hrow
      · rw [List.mem_singleton.mp hrow]
        exact .inr rfl

/-- A Session entry that was projected and delivered once can be projected and
delivered again on equal tables. -/
theorem runs_replayEntry_session {event : JournalEntry} {sessionId : SessionId}
    {tables : Projection} {delivery : Option Delivery}
    (hsubject : event.subject = .session sessionId)
    (hproject : store.projection.projectSession world event = .ok (tables, delivery))
    (hdeliver : ∀ sent ∈ delivery, Deliverable world tables sessionId event sent)
    (hfresh : ∀ other ∈ store.clientEvents, other.body.id ≠ event.id)
    (hjournal : event ∈ store.journalEntries) :
    Runs (replayEntry world event) store ()
      (publish { store with projection := tables } sessionId event delivery) := by
  rw [replayEntry, hsubject]
  refine .bind (runs_reads _ store) (.bind (runs_lift hproject store)
    (.bind (runs_modify _ store) ?_))
  cases delivery with
  | none => exact runs_pure () _
  | some sent =>
      obtain ⟨hvalid, hsession, hentry⟩ := hdeliver sent rfl
      refine .bind (runs_lift (by rw [journalSessionId, hsubject]) _) (.bind (runs_reads _ _)
        (.bind (runs_lift hvalid _) ?_))
      exact runs_insertDurable hfresh hsession hentry hjournal

/-! ## The whole journal -/

/-- Replaying the journal of `store` in a database that holds `journal` reaches
the tables of `store`. -/
def Replays (world : World) (journal : List JournalEntry) (store : Store) : Prop :=
  ∃ replayed, Runs (replay world store.journalEntries) (withJournal journal) () replayed ∧
    replayed.projection = store.projection ∧ replayed.journalEntries = journal ∧
    ∀ row ∈ replayed.clientEvents, ∃ entry ∈ store.journalEntries, entry.id = row.body.id

theorem Replays.move {journal : List JournalEntry} (hmove : Move world footprint store store')
    (hjournal : store'.journalEntries ⊆ journal)
    (hreplays : store.journalEntries ⊆ journal → Replays world journal store) :
    Replays world journal store' := by
  cases hmove with
  | projected sessionId event tables delivery hsubject hid _ _ _ hproject _ hdeliver =>
      rw [publish_journalEntries] at hjournal
      obtain ⟨replayed, hrun, htables, hsame, hevents⟩ :=
        hreplays fun entry hentry => hjournal (List.mem_append_left _ hentry)
      have hmem : event ∈ replayed.journalEntries := by
        rw [hsame]
        exact hjournal (by simp)
      have hfresh : ∀ other ∈ replayed.clientEvents, other.body.id ≠ event.id := by
        intro other hother heq
        obtain ⟨entry, hentry, hentryId⟩ := hevents other hother
        exact hid entry hentry (hentryId.trans heq)
      rw [← htables] at hproject
      have hlast := runs_replayEntry_session hsubject hproject hdeliver hfresh hmem
      have hall := hrun.each_append (runs_each_singleton hlast)
      rw [Replays, publish_journalEntries, publish_projection]
      refine ⟨_, hall, by simp, by simpa using hsame, fun row hrow => ?_⟩
      rcases mem_publish_clientEvents hrow with hrow | hid
      · obtain ⟨entry, hentry, hid⟩ := hevents row hrow
        exact ⟨entry, List.mem_append_left _ hentry, hid⟩
      · exact ⟨event, by simp, hid.symm⟩
  | aggregated entries tables hsubject _ _ _ _ _ hproject =>
      obtain ⟨replayed, hrun, htables, hsame, hevents⟩ :=
        hreplays fun entry hentry => hjournal (List.mem_append_left _ hentry)
      rw [← htables] at hproject
      refine ⟨_, hrun.each_append (runs_replay_aggregates hsubject hproject), rfl, hsame, ?_⟩
      intro row hrow
      obtain ⟨entry, hentry, hid⟩ := hevents row hrow
      exact ⟨entry, List.mem_append_left _ hentry, hid⟩
  | delivered _ hmove =>
      obtain ⟨hprojection, hentries, -⟩ := hmove.keeps
      rw [hentries] at hjournal
      rw [Replays, hprojection, hentries]
      exact hreplays hjournal
  | _ => exact hreplays hjournal

theorem Replays.moves {journal : List JournalEntry} (hmoves : Moves world footprint store store')
    (hreplays : store.journalEntries ⊆ journal → Replays world journal store)
    (hjournal : store'.journalEntries ⊆ journal) : Replays world journal store' := by
  induction hmoves with
  | refl => exact hreplays hjournal
  | tail _ hmove ih => exact .move hmove hjournal ih

theorem replays_empty (journal : List JournalEntry) : Replays world journal empty :=
  ⟨withJournal journal, runs_pure () _, rfl, rfl, by simp [withJournal, empty]⟩

theorem run_replays (world : World) (ops : List StoreOp) (journal : List JournalEntry) :
    (run world ops).journalEntries ⊆ journal → Replays world journal (run world ops) :=
  (run_invariant world
    (fun store => store.projection.Keyed ∧
      (store.journalEntries ⊆ journal → Replays world journal store))
    ⟨Projection.keyed_empty, fun _ => replays_empty journal⟩
    (fun _ op ⟨hkeyed, hreplays⟩ =>
      ⟨step_keyed hkeyed op, .moves (step_moves world hkeyed op) hreplays⟩) ops).2

/-! ## Positions and the projection of new entries -/

/-- One entry through the projection of its subject, as a function of the tables. -/
def projectEntry (world : World) (tables : Projection) (event : JournalEntry) :
    Except StoreError Projection :=
  match event.subject with
  | .session _ => (tables.projectSession world event).map (·.1)
  | _ => tables.projectAggregate event

/-- The journal has grown by entries whose projection leads from the tables of
one store to the tables of the other. -/
def Journaled (world : World) (store store' : Store) : Prop :=
  ∃ entries, store'.journalEntries = store.journalEntries ++ entries ∧
    entries.map (·.position) = List.range' (store.lastPosition + 1) entries.length ∧
    entries.foldlM (projectEntry world) store.projection = .ok store'.projection

theorem lastPosition_append {entries : List JournalEntry}
    (hjournal : store'.journalEntries = store.journalEntries ++ entries)
    (hpositions : entries.map (·.position) =
      List.range' (store.lastPosition + 1) entries.length) :
    store'.lastPosition = store.lastPosition + entries.length := by
  rcases List.eq_nil_or_concat entries with rfl | ⟨earlier, last, rfl⟩
  · rw [List.append_nil] at hjournal
    simp [lastPosition, hjournal]
  · have hlast := congrArg List.getLast? hpositions
    rw [List.concat_eq_append, List.length_append, List.length_singleton, List.range'_concat] at hlast
    simp only [List.map_append, List.map_cons, List.map_nil, List.getLast?_concat,
      Option.some.injEq] at hlast
    rw [lastPosition, hjournal, List.concat_eq_append, ← List.append_assoc]
    simp only [List.getLast?_concat, Option.map_some, Option.getD_some, hlast, List.length_append,
      List.length_singleton]
    omega

theorem Journaled.refl (store : Store) : Journaled world store store :=
  ⟨[], by simp, by simp, rfl⟩

theorem Journaled.trans {first second third : Store} (hfirst : Journaled world first second)
    (hsecond : Journaled world second third) : Journaled world first third := by
  obtain ⟨entries, hjournal, hpositions, hfold⟩ := hfirst
  obtain ⟨entries', hjournal', hpositions', hfold'⟩ := hsecond
  refine ⟨entries ++ entries', by rw [hjournal', hjournal, List.append_assoc], ?_, ?_⟩
  · rw [lastPosition_append hjournal hpositions] at hpositions'
    rw [List.map_append, hpositions, hpositions', List.length_append,
      ← List.range'_append_1]
    congr 2
    omega
  · rw [List.foldlM_append, hfold]
    exact hfold'

theorem Move.journaled (hmove : Move world footprint store store') :
    Journaled world store store' := by
  cases hmove with
  | projected sessionId event tables delivery hsubject _ hposition _ _ hproject =>
      refine ⟨[event], by simp, by simp [hposition], ?_⟩
      simp [projectEntry, hsubject, hproject, Except.map, bind, Except.bind, pure, Except.pure]
  | aggregated entries tables hsubject _ _ hpositions _ _ hproject =>
      refine ⟨entries, rfl, hpositions, ?_⟩
      rw [foldlM_congr (fun event hevent tables => ?_) store.projection, hproject]
      cases hevent' : event.subject with
      | session sessionId => exact absurd (by rw [hevent']; rfl) (hsubject event hevent)
      | _ => simp [projectEntry, hevent']
  | delivered _ hmove =>
      obtain ⟨hprojection, hentries, -⟩ := hmove.keeps
      exact ⟨[], by simp [hentries], by simp, by rw [hprojection]; rfl⟩
  | _ => exact .refl store

theorem Moves.journaled (hmoves : Moves world footprint store store') :
    Journaled world store store' := by
  induction hmoves with
  | refl => exact .refl _
  | tail _ hmove ih => exact ih.trans hmove.journaled

theorem runFrom_journaled (world : World) {store : Store} (hkeyed : store.projection.Keyed)
    (ops : List StoreOp) : Journaled world store (runFrom world store ops) :=
  (runFrom_moves world hkeyed ops).journaled

/-- The tables are the fold of the journal: the entries stand at the positions
1, 2, …, replaying them in a database with empty tables reaches the tables of
the store, and whatever later commands change in the tables they change through
the entries they append. -/
theorem projection_is_journal_fold (world : World) (ops later : List StoreOp) :
    let store := run world ops
    let store' := run world (ops ++ later)
    store.journalEntries.map (·.position) = List.range' 1 store.journalEntries.length ∧
    (∃ replayed,
      replay world store.journalEntries (withJournal store.journalEntries) = (.ok (), replayed) ∧
      replayed.projection = store.projection) ∧
    ∃ entries, store'.journalEntries = store.journalEntries ++ entries ∧
      entries.foldlM (projectEntry world) store.projection = .ok store'.projection := by
  intro store store'
  refine ⟨?_, ?_, ?_⟩
  · have hjournaled : Journaled world empty store := runFrom_journaled world Projection.keyed_empty ops
    obtain ⟨entries, hjournal, hpositions, -⟩ := hjournaled
    have hstore : store.journalEntries = entries := hjournal
    rw [hstore]
    exact hpositions
  · obtain ⟨replayed, hrun, hprojection, -⟩ :=
      run_replays world ops store.journalEntries (fun _ h => h)
    exact ⟨replayed, hrun, hprojection⟩
  · obtain ⟨entries, hjournal, -, hfold⟩ := runFrom_journaled world (run_keyed world ops) later
    rw [← run_append] at hjournal hfold
    exact ⟨entries, hjournal, hfold⟩

end Store

end Mews
