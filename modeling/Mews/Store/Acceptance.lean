import Mews.Store.Lifecycle
import Mews.Store.Retries

/-!
# Retried Turn acceptances

`replayTurnIdempotent` looks a request up before its content is resolved and
`acceptTurnIdempotent` accepts it afterwards; both read the same receipt.  The
receipt of an accepted Turn names rows that no later command removes, which is
what makes every retry succeed.
-/

namespace Mews

open Protocol Table Tx

namespace Projection

variable {world : World} {closing : TurnId → Prop} {tables tables' : Projection}
  {sessionId : SessionId} {event : JournalEntry} {delivery : Option Delivery}

/-! ## Rows that stay -/

/-- The columns of a Session that never change. -/
def owner (session : Session) : SessionId × AgentId := (session.id, session.agentId)

/-- Turns go on, timeline rows stay as they are, and no Session or Agent is
removed. -/
structure Keeps (tables tables' : Projection) : Prop where
  turns : ∀ row ∈ tables.turns, ∃ row' ∈ tables'.turns, row.Continues row'
  entries : tables.sessionEntries ⊆ tables'.sessionEntries
  sessions : tables.sessions.map owner ⊆ tables'.sessions.map owner
  agents : tables.agents.map (·.id) ⊆ tables'.agents.map (·.id)

theorem Keeps.refl (tables : Projection) : tables.Keeps tables :=
  ⟨fun row hrow => ⟨row, hrow, .refl row⟩, fun _ h => h, fun _ h => h, fun _ h => h⟩

theorem Keeps.trans {first second third : Projection} (hfirst : first.Keeps second)
    (hsecond : second.Keeps third) : first.Keeps third where
  turns := by
    intro row hrow
    obtain ⟨row', hrow', hcontinues⟩ := hfirst.turns row hrow
    obtain ⟨row'', hrow'', hcontinues'⟩ := hsecond.turns row' hrow'
    exact ⟨row'', hrow'', hcontinues.trans hcontinues'⟩
  entries := fun _ hrow => hsecond.entries (hfirst.entries hrow)
  sessions := fun _ hsession => hsecond.sessions (hfirst.sessions hsession)
  agents := fun _ hagent => hsecond.agents (hfirst.agents hagent)

/-- The Agent of every Session and the Session of every Turn exist. -/
structure Standing (tables : Projection) : Prop where
  agents : ∀ session ∈ tables.sessions, session.agentId ∈ tables.agents.map (·.id)
  sessions : ∀ row ∈ tables.turns, row.turn.sessionId ∈ tables.sessions.map (·.id)

theorem standing_empty : Projection.empty.Standing := by
  constructor <;> simp [Projection.empty]

theorem map_owner_setLeaf (leaf : Option MessageId) :
    (tables.setLeaf sessionId leaf).map owner = tables.sessions.map owner :=
  map_updateWhere fun _ => rfl

theorem Placed.sessions_eq {entryId : MessageId} {payload : SessionEntryPayload}
    {contextual : Bool} {key : Option String} {createdAt : DateTime} {entry : SessionEntry}
    (hplaced : Placed tables sessionId entryId payload contextual key createdAt tables' entry) :
    tables'.sessions.map owner = tables.sessions.map owner := by
  rw [hplaced.tables_eq]
  by_cases hcontextual : contextual = true
  · simp only [hcontextual, if_true]
    exact map_owner_setLeaf _
  · simp only [hcontextual, Bool.false_eq_true, if_false]

theorem Placed.session_mem {entryId : MessageId} {payload : SessionEntryPayload}
    {contextual : Bool} {key : Option String} {createdAt : DateTime} {entry : SessionEntry}
    (hplaced : Placed tables sessionId entryId payload contextual key createdAt tables' entry) :
    sessionId ∈ tables.sessions.map (·.id) := by
  have hleaf := hplaced.leaf
  rw [currentSessionLeaf] at hleaf
  cases hfind : tables.findSession sessionId with
  | none => simp [hfind] at hleaf
  | some session =>
      rw [findSession] at hfind
      have hid : session.id = sessionId := by simpa using List.find?_some hfind
      exact List.mem_map.mpr ⟨session, List.mem_of_find?_eq_some hfind, hid⟩

/-- A Session entry adds at most one Session, and its Agent exists. -/
theorem SessionChange.sessions_eq
    (hchange : SessionChange world tables sessionId event tables' delivery) :
    tables'.agents = tables.agents ∧
    ∃ added, tables'.sessions.map owner = tables.sessions.map owner ++ added ∧
      ∀ pair ∈ added, pair.2 ∈ tables.agents.map (·.id) := by
  cases hchange with
  | sessionCreated session _ _ hagent =>
      refine ⟨rfl, [owner session], by simp [owner], ?_⟩
      simp only [agentExists, List.any_eq_true, decide_eq_true_eq] at hagent
      simpa [owner] using hagent
  | modelChanged model =>
      refine ⟨rfl, [], ?_, by simp⟩
      rw [List.append_nil]
      exact map_updateWhere fun _ => rfl
  | leafChanged leaf => exact ⟨rfl, [], by simp [map_owner_setLeaf], by simp⟩
  | entryAppended _ _ _ _ _ _ _ _ hplaced =>
      exact ⟨by rw [hplaced.tables_eq], [], by simp [hplaced.sessions_eq], by simp⟩
  | turnAccepted _ _ _ _ _ _ _ _ _ hplaced =>
      exact ⟨by simp [hplaced.tables_eq], [], by simp [hplaced.sessions_eq], by simp⟩
  | turnStarted _ _ _ _ _ _ hplaced =>
      exact ⟨by rw [hplaced.tables_eq], [], by simp [hplaced.sessions_eq], by simp⟩
  | turnEnded _ _ _ _ _ _ _ _ _ hplaced =>
      exact ⟨by rw [hplaced.tables_eq], [], by simp [hplaced.sessions_eq], by simp⟩
  | _ => exact ⟨rfl, [], by simp, by simp⟩

/-- A new Turn is accepted in a Session that exists. -/
theorem SessionChange.turn_session
    (hchange : SessionChange world tables sessionId event tables' delivery) {row' : TurnRow}
    (hrow' : row' ∈ tables'.turns) :
    (∃ row ∈ tables.turns, row.turn.sessionId = row'.turn.sessionId) ∨
      row'.turn.sessionId ∈ tables.sessions.map (·.id) := by
  cases hchange with
  | entryAppended _ _ _ _ _ _ _ _ hplaced =>
      rw [hplaced.turns_eq] at hrow'
      exact .inl ⟨row', hrow', rfl⟩
  | turnAccepted _ _ _ _ _ _ _ _ _ hplaced =>
      rcases List.mem_append.mp hrow' with hrow' | hrow'
      · rw [hplaced.turns_eq] at hrow'
        exact .inl ⟨row', hrow', rfl⟩
      · obtain rfl := List.mem_singleton.mp hrow'
        exact .inr hplaced.session_mem
  | turnStarted _ _ _ _ _ _ hplaced =>
      rw [hplaced.turns_eq] at hrow'
      obtain ⟨row, hrow, rfl⟩ := mem_updateWhere.mp hrow'
      exact .inl ⟨row, hrow, by split <;> rfl⟩
  | turnEnded _ _ _ _ _ _ _ _ _ hplaced =>
      rw [hplaced.turns_eq] at hrow'
      obtain ⟨row, hrow, rfl⟩ := mem_updateWhere.mp hrow'
      exact .inl ⟨row, hrow, by split <;> rfl⟩
  | _ => exact .inl ⟨row', hrow', rfl⟩

/-- No entry changes or removes a row of the timeline. -/
theorem SessionChange.entries_subset
    (hchange : SessionChange world tables sessionId event tables' delivery) :
    tables.sessionEntries ⊆ tables'.sessionEntries := by
  intro row hrow
  cases hchange with
  | entryAppended _ _ _ _ _ _ _ _ hplaced =>
      rw [hplaced.tables_eq]
      exact List.mem_append_left _ hrow
  | turnAccepted _ _ _ _ _ _ _ _ _ hplaced =>
      simp only [hplaced.tables_eq]
      exact List.mem_append_left _ hrow
  | turnStarted _ _ _ _ _ _ hplaced =>
      rw [hplaced.tables_eq]
      exact List.mem_append_left _ hrow
  | turnEnded _ _ _ _ _ _ _ _ _ hplaced =>
      rw [hplaced.tables_eq]
      exact List.mem_append_left _ hrow
  | _ => exact hrow

end Projection

namespace Store

open Projection

variable {world : World} {footprint : Footprint} {store store' : Store}

theorem Move.keeps (hmove : Move world footprint store store') (hkeyed : store.projection.Keyed) :
    store.projection.Keeps store'.projection := by
  refine ⟨((Moves.advances (.single hmove)) hkeyed).turns, ?_, ?_, ?_⟩
  · rcases hmove.session_tables with hsame | ⟨_, _, _, _, -, -, -, hchange⟩
    · rw [hsame.entries_eq]
      exact fun _ h => h
    · exact hchange.entries_subset
  · rcases hmove.session_tables with hsame | ⟨_, _, _, _, -, -, -, hchange⟩
    · rw [hsame.sessions_eq]
      exact fun _ h => h
    · obtain ⟨-, added, hsessions, -⟩ := hchange.sessions_eq
      rw [hsessions]
      exact fun _ h => List.mem_append_left _ h
  · cases hmove with
    | projected _ _ _ _ hsubject _ _ _ _ hproject =>
        rw [publish_projection, (projectSession_change hsubject hproject).sessions_eq.1]
        exact fun _ h => h
    | aggregated _ _ _ _ _ _ _ _ hproject => exact (foldlM_projectAggregate_same hproject).2
    | delivered _ hmove =>
        rw [hmove.keeps.1]
        exact fun _ h => h
    | _ => exact fun _ h => h

theorem Moves.keeps (hmoves : Moves world footprint store store')
    (hkeyed : store.projection.Keyed) : store.projection.Keeps store'.projection := by
  induction hmoves with
  | refl => exact .refl _
  | tail hmoves hmove ih => exact ih.trans (hmove.keeps (Moves.keyed hmoves hkeyed))

theorem Move.standing (hmove : Move world footprint store store')
    (hkeyed : store.projection.Keyed) (hstanding : store.projection.Standing) :
    store'.projection.Standing := by
  have hkeeps := hmove.keeps hkeyed
  obtain ⟨hagents, hsessions⟩ := hstanding
  have hsession : ∀ sessionId ∈ store.projection.sessions.map (·.id),
      sessionId ∈ store'.projection.sessions.map (·.id) := by
    intro sessionId hmem
    obtain ⟨session, hsession, rfl⟩ := List.mem_map.mp hmem
    obtain ⟨session', hsession', heq⟩ := List.mem_map.mp
      (hkeeps.sessions (List.mem_map_of_mem hsession))
    rw [owner, owner, Prod.mk.injEq] at heq
    exact List.mem_map.mpr ⟨session', hsession', heq.1⟩
  rcases hmove.session_tables with hsame | ⟨_, _, _, _, -, -, -, hchange⟩
  · constructor
    · rw [hsame.sessions_eq]
      exact fun session hmem => hkeeps.agents (hagents session hmem)
    · rw [hsame.turns_eq]
      exact fun row hrow => hsession _ (hsessions row hrow)
  · constructor
    · intro session' hsession'
      obtain ⟨-, added, heq, hadded⟩ := hchange.sessions_eq
      have hmem : owner session' ∈ store.projection.sessions.map owner ++ added := by
        rw [← heq]
        exact List.mem_map_of_mem hsession'
      rcases List.mem_append.mp hmem with hmem | hmem
      · obtain ⟨session, hmem, heq⟩ := List.mem_map.mp hmem
        rw [owner, owner, Prod.mk.injEq] at heq
        rw [← heq.2]
        exact hkeeps.agents (hagents session hmem)
      · exact hkeeps.agents (hadded _ hmem)
    · intro row' hrow'
      rcases hchange.turn_session hrow' with ⟨row, hrow, heq⟩ | hmem
      · rw [← heq]
        exact hsession _ (hsessions row hrow)
      · exact hsession _ hmem

/-! ## What retries rely on -/

theorem ReceiptHolds.keeps {tables tables' : Projection} {receipt : CommandReceipt}
    (hkeeps : tables.Keeps tables') (hholds : ReceiptHolds tables receipt) :
    ReceiptHolds tables' receipt := by
  intro sessionId key hcommand
  obtain ⟨turnId, entryId, hresult, ⟨row, hrow, hid, hsession⟩, entry, hentry, hentryId, hmessage⟩ :=
    hholds sessionId key hcommand
  obtain ⟨row', hrow', hcontinues⟩ := hkeeps.turns row hrow
  refine ⟨turnId, entryId, hresult, ⟨row', hrow', by rw [hcontinues.id, hid],
    by rw [hcontinues.session, hsession]⟩, entry, ?_, hentryId, hmessage⟩
  obtain ⟨hmem, hof⟩ := List.mem_filter.mp hentry
  exact List.mem_filter.mpr ⟨hkeeps.entries hmem, hof⟩

/-- What holds of every reachable store and lets a receipt be read back. -/
structure Retryable (store : Store) : Prop where
  keyed : store.projection.Keyed
  standing : store.projection.Standing
  receipts : ∀ receipt ∈ store.commandReceipts, ReceiptHolds store.projection receipt

theorem Move.retryable (hmove : Move world footprint store store') (hretryable : store.Retryable) :
    store'.Retryable where
  keyed := Moves.keyed (.single hmove) hretryable.keyed
  standing := hmove.standing hretryable.keyed hretryable.standing
  receipts := by
    have hkeeps := hmove.keeps hretryable.keyed
    have hold : ∀ receipt ∈ store.commandReceipts, ReceiptHolds store'.projection receipt :=
      fun receipt hreceipt => (hretryable.receipts receipt hreceipt).keeps hkeeps
    cases hmove with
    | projected =>
        rw [publish_commandReceipts]
        exact hold
    | received receipt _ hturn =>
        intro other hother
        rcases List.mem_append.mp hother with hother | hother
        · exact hold other hother
        · obtain rfl := List.mem_singleton.mp hother
          exact hturn
    | delivered _ hmove =>
        rw [hmove.keeps.2.2]
        exact hold
    | _ => exact hold

theorem Moves.retryable (hmoves : Moves world footprint store store')
    (hretryable : store.Retryable) : store'.Retryable := by
  induction hmoves with
  | refl => exact hretryable
  | tail _ hmove ih => exact hmove.retryable ih

theorem run_retryable (world : World) (ops : List StoreOp) : (run world ops).Retryable :=
  (runFrom_moves world Projection.keyed_empty ops).retryable
    ⟨Projection.keyed_empty, Projection.standing_empty, by simp [empty]⟩

/-! ## Reading a receipt back -/

/-- The rows a receipt of an accepted Turn is read back from. -/
structure Loads (tables : Projection) (sessionId : SessionId) (result : CommandResult)
    (row : TurnRow) (message : Message) : Prop where
  turn : row ∈ tables.turns
  session : row.turn.sessionId = sessionId
  entry : ∃ entry ∈ tables.timeline sessionId, result = .turn row.turn.id entry.entry.id ∧
    messageFromEntry entry.entry = .ok message

theorem ReceiptHolds.loads {tables : Projection} {receipt : CommandReceipt} {sessionId : SessionId}
    {key : String} (hholds : ReceiptHolds tables receipt)
    (hcommand : receipt.commandId = .turn sessionId key) :
    ∃ row message, Loads tables sessionId receipt.result row message := by
  obtain ⟨turnId, entryId, hresult, ⟨row, hrow, rfl, hsession⟩, entry, hentry, rfl, content,
    metadata, source, hpayload⟩ := hholds sessionId key hcommand
  have hmessage : ∃ message, messageFromEntry entry.entry = .ok message := by
    rw [messageFromEntry, hpayload]
    exact ⟨_, rfl⟩
  obtain ⟨message, hmessage⟩ := hmessage
  exact ⟨row, message, hrow, hsession, entry, hentry, hresult, hmessage⟩

theorem Loads.keeps {tables tables' : Projection} {sessionId : SessionId} {result : CommandResult}
    {row : TurnRow} {message : Message} (hloads : Loads tables sessionId result row message)
    (hkeeps : tables.Keeps tables') :
    ∃ row', row.Continues row' ∧ Loads tables' sessionId result row' message := by
  obtain ⟨hrow, hsession, entry, hentry, hresult, hmessage⟩ := hloads
  obtain ⟨row', hrow', hcontinues⟩ := hkeeps.turns row hrow
  obtain ⟨hmem, hof⟩ := List.mem_filter.mp hentry
  refine ⟨row', hcontinues, hrow', hcontinues.session.trans hsession, entry,
    List.mem_filter.mpr ⟨hkeeps.entries hmem, hof⟩, ?_, hmessage⟩
  rw [hresult, hcontinues.id]

theorem Loads.runs {sessionId : SessionId} {result : CommandResult} {row : TurnRow}
    {message : Message} (hloads : Loads store.projection sessionId result row message)
    (hkeyed : store.projection.Keyed) :
    Runs (loadTurnResult sessionId result) store (row.turn, message) store := by
  obtain ⟨hrow, -, entry, hentry, rfl, hmessage⟩ := hloads
  have hturn : store.projection.selectTurn row.turn.id = .ok row.turn := by
    rw [selectTurn, hkeyed.turns.find?_eq_some hrow]
  have hfind : store.projection.selectSessionEntry sessionId entry.entry.id = .ok entry.entry := by
    have hunique : Unique (fun row => row.entry.id) (store.projection.timeline sessionId) :=
      hkeyed.entries.filter _
    rw [selectSessionEntry, hunique.find?_eq_some hentry]
  have hloadTurn : Runs (Store.turn row.turn.id) store row.turn store :=
    (runs_reads _ store).bind (runs_lift hturn store)
  have hloadEntry : Runs (selectEntry sessionId entry.entry.id) store entry.entry store :=
    (runs_reads _ store).bind (runs_lift hfind store)
  exact hloadTurn.bind (hloadEntry.bind ((runs_lift hmessage store).bind (runs_pure _ store)))

theorem Retryable.loads (hretryable : store.Retryable) {sessionId : SessionId} {key : String}
    {receipt : CommandReceipt}
    (hfound : store.selectCommandReceipt (.turn sessionId key) = some receipt) :
    ∃ row message, Loads store.projection sessionId receipt.result row message := by
  rw [selectCommandReceipt] at hfound
  exact (hretryable.receipts receipt (List.mem_of_find?_eq_some hfound)).loads
    (by simpa using List.find?_some hfound)

/-- The Session of an accepted Turn still has its Agent. -/
theorem Retryable.sessionAgentRevision (hretryable : store.Retryable) {row : TurnRow}
    (hrow : row ∈ store.projection.turns) :
    ∃ revision, sessionAgentRevision row.turn.sessionId store.projection = some revision := by
  obtain ⟨session, hsession, hid⟩ := List.mem_map.mp (hretryable.standing.sessions row hrow)
  rw [Store.sessionAgentRevision, findSession]
  cases hfind : store.projection.sessions.find? fun session =>
      session.id = row.turn.sessionId with
  | none => exact absurd hid (by simpa using List.find?_eq_none.mp hfind session hsession)
  | some session =>
      obtain ⟨agent, hagent, hid⟩ := List.mem_map.mp
        (hretryable.standing.agents session (List.mem_of_find?_eq_some hfind))
      cases hfind' : store.projection.agents.find? fun agent => agent.id = session.agentId with
      | none => exact absurd hid (by simpa using List.find?_eq_none.mp hfind' agent hagent)
      | some agent => exact ⟨agent.currentRevision, by simp [hfind']⟩

/-! ## Requests -/

end Store

def StoreError.isCommandConflict : StoreError → Bool
  | .commandConflict _ => true
  | _ => false

/-- The raw request of a Turn, before its content is resolved. -/
structure TurnRequest where
  sessionId : SessionId
  key : String
  content : MessageContent
  metadata : Value
  source : MessageSource
  deriving DecidableEq, Repr

namespace TurnRequest

variable (world : World) (request : TurnRequest)

def commandId : CommandId := .turn request.sessionId request.key

def hash : Digest :=
  world.requestHash (.turn request.sessionId request.content request.metadata request.source)

/-- The request passes the admission checks with the given content. -/
def Admits (content : MessageContent) : Prop :=
  validateTurnInput world request.key content request.metadata request.source = .ok ()

def replay : Store.Action (Option (Turn × Message)) :=
  Store.replayTurnIdempotent world request.sessionId request.key request.content request.metadata
    request.source

def accept (resolved : MessageContent) : Store.Action (Turn × Message × Bool) :=
  Store.acceptTurnIdempotent world request.sessionId request.key request.content resolved
    request.metadata request.source

end TurnRequest

namespace Store

open Projection

variable {world : World} {store store' : Store} {request : TurnRequest} {receipt : CommandReceipt}
  {resolved : MessageContent}

/-- The append of an acceptance passes the checks of the journal. -/
theorem validateAppend_turnAppend {sessionId : SessionId} {key : String}
    {requestContent resolvedContent : MessageContent} {metadata : Value} {source : MessageSource}
    {agentRevision : Nat} {turnId : TurnId} {entryId : MessageId} {eventId : EventId} :
    validateAppend (turnAppend world sessionId key requestContent resolvedContent metadata source
      agentRevision turnId entryId eventId) = .ok () := by
  have hcommand : isBlank (CommandId.turn sessionId key).asStr = false := by
    simp only [CommandId.asStr, isBlank_append]
    rw [show isBlank "turn:" = false by decide]
    simp
  simp [validateAppend, turnAppend, validateNonEmpty, hcommand, isBlank_subjectId, validateNewEntry, demand,
    JournalEvent.validateSubjectId, JournalEvent.subjectType, JournalSubject.kind]
  rfl

theorem runs_newId {marker : String} :
    Runs (newId world : Action (TaggedId marker)) store { uuid := world.uuid store.drawn }
      { store with drawn := store.drawn + 1 } := rfl

section Append

variable {append : JournalAppend} {mutate : List JournalEntry → Action Unit}

theorem runs_appendJournalEntriesIn_replay (hvalid : validateAppend append = .ok ())
    (hfound : store.selectCommandReceipt append.commandId = some receipt)
    (hhash : receipt.requestHash = append.requestHash) :
    Runs (appendJournalEntriesIn world append mutate) store (.replayed receipt) store := by
  apply Runs.bind (runs_lift hvalid store)
  apply Runs.bind (runs_reads _ store)
  rw [hfound]
  exact (runs_require hhash store).bind (runs_pure _ store)

theorem fails_appendJournalEntriesIn_conflict (hvalid : validateAppend append = .ok ())
    (hfound : store.selectCommandReceipt append.commandId = some receipt)
    (hhash : receipt.requestHash ≠ append.requestHash) :
    Fails (appendJournalEntriesIn world append mutate) store (.commandConflict append.commandId)
      store := by
  apply Runs.fails (runs_lift hvalid store)
  apply Runs.fails (runs_reads _ store)
  rw [hfound]
  exact (fails_require hhash store).bind _

end Append

/-- With a receipt in the way an acceptance makes its draws and replays it. -/
theorem runs_acceptTurnIn_replay {revision : Nat}
    (hrevision : sessionAgentRevision request.sessionId store.projection = some revision)
    (hfound : store.selectCommandReceipt request.commandId = some receipt)
    (hhash : receipt.requestHash = request.hash world) :
    Runs (acceptTurnIn world request.sessionId request.key request.content resolved
        request.metadata request.source) store (.replayed receipt)
      { store with drawn := store.drawn + 1 + 1 + 1 } := by
  apply Runs.bind (runs_reads _ store)
  apply Runs.bind (runs_expect hrevision store)
  apply Runs.bind runs_newId
  apply Runs.bind runs_newId
  apply Runs.bind runs_newId
  exact runs_appendJournalEntriesIn_replay validateAppend_turnAppend hfound hhash

theorem fails_acceptTurnIn_conflict {revision : Nat}
    (hrevision : sessionAgentRevision request.sessionId store.projection = some revision)
    (hfound : store.selectCommandReceipt request.commandId = some receipt)
    (hhash : receipt.requestHash ≠ request.hash world) :
    Fails (acceptTurnIn world request.sessionId request.key request.content resolved
        request.metadata request.source) store (.commandConflict request.commandId)
      { store with drawn := store.drawn + 1 + 1 + 1 } := by
  apply Runs.fails (runs_reads _ store)
  apply Runs.fails (runs_expect hrevision store)
  apply Runs.fails runs_newId
  apply Runs.fails runs_newId
  apply Runs.fails runs_newId
  exact fails_appendJournalEntriesIn_conflict validateAppend_turnAppend hfound hhash

/-! ## Failures other than conflicts -/

/-- The checks that never end in a command conflict. -/
def NoConflict {A : Type} (outcome : Except StoreError A) : Prop :=
  ∀ error, outcome = .error error → error.isCommandConflict = false

theorem NoConflict.bind {A B : Type} {first : Except StoreError A} {next : A → Except StoreError B}
    (hfirst : NoConflict first) (hnext : ∀ value, NoConflict (next value)) :
    NoConflict (first >>= next) := by
  intro error herror
  rcases bind_eq_error.mp herror with herror | ⟨value, -, herror⟩
  · exact hfirst error herror
  · exact hnext value error herror

theorem noConflict_pure {A : Type} (value : A) : NoConflict (pure value) :=
  fun _ herror => (pure_eq_error.mp herror).elim

theorem noConflict_demand {condition : Prop} [Decidable condition] {error : StoreError}
    (herror : error.isCommandConflict = false) : NoConflict (demand condition error) :=
  fun _ h => (demand_eq_error.mp h).2 ▸ herror

theorem noConflict_validateTurnInput {key : String} {content : MessageContent} {metadata : Value}
    {source : MessageSource} : NoConflict (validateTurnInput world key content metadata source) := by
  refine .bind (noConflict_demand rfl) fun _ => .bind (noConflict_demand rfl) fun _ =>
    .bind (noConflict_demand rfl) fun _ => ?_
  have hitem : NoConflict (validateSessionItem world (.userMessage content metadata source)) :=
    noConflict_demand rfl
  cases content with
  | text text => exact .bind (noConflict_demand rfl) fun _ => hitem
  | _ => exact .bind (noConflict_pure ()) fun _ => hitem

section Projection

variable {tables : Projection} {sessionId : SessionId}

theorem noConflict_currentSessionLeaf : NoConflict (tables.currentSessionLeaf sessionId) := by
  intro error herror
  rw [currentSessionLeaf] at herror
  split at herror <;> cases herror
  rfl

theorem noConflict_requireNoActiveTurn : NoConflict (tables.requireNoActiveTurn sessionId) := by
  intro error herror
  rw [requireNoActiveTurn] at herror
  split at herror <;> cases herror
  rfl

/-- The projection of an accepted Turn fails for another active Turn, a missing
Session or revision, or a constraint. -/
theorem noConflict_acceptTurn {event : JournalEntry} {turnId : TurnId} {agentRevision : Nat}
    {entryId : MessageId} {content : MessageContent} {metadata : Value} {source : MessageSource} :
    NoConflict (tables.acceptTurn world event sessionId turnId agentRevision entryId content
      metadata source) := by
  have hplace : ∀ payload createdAt, NoConflict
      (tables.placeEntry sessionId entryId payload true none createdAt) := fun payload createdAt =>
    .bind noConflict_currentSessionLeaf fun _ => .bind (noConflict_demand rfl) fun _ =>
      noConflict_pure _
  refine .bind noConflict_requireNoActiveTurn fun _ => .bind noConflict_currentSessionLeaf fun _ =>
    .bind (noConflict_demand rfl) fun _ => .bind (hplace _ _) fun _ => ?_
  exact .bind (noConflict_demand rfl) fun _ => .bind (noConflict_demand rfl) fun _ =>
    noConflict_pure _

end Projection

section Refusals

variable {post : StoreError → Prop}

@[simp] theorem refuses_newId {marker : String} :
    refuses (newId world : Action (TaggedId marker)) store post := by
  intro error state' hrun
  cases hrun

@[simp] theorem refuses_utcNow : refuses (utcNow world) store post := by
  intro error state' hrun
  cases hrun

@[simp] theorem refuses_select {A : Type} (query : Projection → A) :
    refuses (select query) store post :=
  refuses_reads _ store post

end Refusals

/-- Inserting an entry fails for a constraint or an entry that does not validate. -/
theorem refuses_insertEntry {commandId : Option CommandId} {subject : JournalSubject}
    {recordedAt : DateTime} {entry : NewJournalEntry} :
    refuses (insertEntry commandId subject recordedAt entry) store
      fun error => error.isCommandConflict = false := by
  simp only [insertEntry, refuses_bind, refuses_reads, refuses_require, refuses_modify,
    refuses_lift, refuses_pure, ensures_reads, ensures_require, ensures_modify, ensures_lift,
    mapError_eq_error, true_and, implies_true, and_true]
  refine ⟨fun _ => rfl, fun _ error herror => ?_⟩
  obtain ⟨inner, -, rfl⟩ := herror
  rfl

theorem refuses_insertEntries {commandId : CommandId} {recordedAt : DateTime} :
    ∀ (items : List (JournalSubject × NewJournalEntry)) (store : Store),
      refuses (insertEntries commandId recordedAt items) store
        fun error => error.isCommandConflict = false := by
  intro items
  induction items with
  | nil => exact fun store => refuses_pure _ store _
  | cons item rest ih =>
      intro store
      obtain ⟨subject, entry⟩ := item
      simp only [insertEntries, refuses_bind, refuses_pure]
      exact ⟨refuses_insertEntry, fun _ _ _ => ⟨ih _, fun _ _ _ => trivial⟩⟩

/-- Projecting an accepted Turn fails in the projection only, since the Turn is
not delivered. -/
theorem refuses_applyTurnAccepted {event : JournalEntry} {sessionId : SessionId} {turnId : TurnId}
    {agentRevision : Nat} {entryId : MessageId} {content : MessageContent} {metadata : Value}
    {source : MessageSource} (hsubject : event.subject = .session sessionId)
    (hpayload : event.payload = .turnAccepted turnId agentRevision entryId content metadata source) :
    refuses (applySessionJournalEntry world event) store
      fun error => error.isCommandConflict = false := by
  have hproject : NoConflict (store.projection.projectSession world event) := by
    rw [projectSession, journalSessionId, hsubject, hpayload]
    exact .bind (noConflict_pure sessionId) fun _ => .bind noConflict_acceptTurn fun _ =>
      noConflict_pure _
  simp only [applySessionJournalEntry, refuses_bind, refuses_reads, ensures_reads, refuses_lift,
    ensures_lift, refuses_modify, ensures_modify, true_and]
  refine ⟨hproject, fun projected hprojected => ?_⟩
  obtain ⟨_, _, -, -, -, hdelivery⟩ :=
    (projectSession_change hsubject hprojected).of_turnAccepted hpayload
  rw [hdelivery]
  exact refuses_pure _ _ _

theorem refuses_appendJournalEntriesIn {append : JournalAppend}
    {mutate : List JournalEntry → Action Unit} (hvalid : validateAppend append = .ok ())
    (hnone : store.selectCommandReceipt append.commandId = none)
    (hmutate : ∀ committed, Inserted store append.items committed → ∀ store',
      refuses (mutate committed) store' fun error => error.isCommandConflict = false) :
    refuses (appendJournalEntriesIn world append mutate) store
      fun error => error.isCommandConflict = false := by
  simp only [appendJournalEntriesIn, refuses_bind, refuses_lift, ensures_lift, refuses_reads,
    ensures_reads, hvalid, hnone, refuses_utcNow, ensures_utcNow, refuses_modify, refuses_pure,
    reduceCtorEq, false_implies, implies_true, true_and]
  refine fun _ _ => ⟨refuses_insertEntries _ _, ?_⟩
  refine ensures_mono (ensures_insertEntries _ _) ?_
  rintro committed _ ⟨-, hinserted⟩
  have hinserted' : Inserted store append.items committed :=
    { hinserted with positions := hinserted.positions, fresh := hinserted.fresh }
  exact ⟨hmutate committed hinserted' _, fun _ _ _ => by simp⟩

/-- Without a receipt an acceptance is not refused as a conflict. -/
theorem refuses_acceptTurnIn (hnone : store.selectCommandReceipt request.commandId = none) :
    refuses (acceptTurnIn world request.sessionId request.key request.content resolved
      request.metadata request.source) store fun error => error.isCommandConflict = false := by
  simp only [acceptTurnIn, refuses_bind, refuses_expect, ensures_expect, refuses_select,
    ensures_select, refuses_newId, ensures_newId, true_and]
  refine ⟨fun _ => rfl, fun revision _ => ?_⟩
  refine refuses_appendJournalEntriesIn validateAppend_turnAppend hnone ?_
  intro committed hinserted store'
  obtain ⟨event, rfl, hpayload, hsubject, -⟩ := hinserted.of_turnAppend
  exact refuses_each_singleton (refuses_applyTurnAccepted hsubject hpayload)

/-! ## What a request meets -/

section Meets

variable (hretryable : store.Retryable) (hadmits : request.Admits world request.content)
  (hresolved : request.Admits world resolved)
  (hfound : store.selectCommandReceipt request.commandId = some receipt)
include hretryable hadmits hresolved hfound

/-- The receipt of the same request: both functions read it back. -/
theorem Retryable.accept_replay (hhash : receipt.requestHash = request.hash world) {row : TurnRow}
    {message : Message}
    (hloads : Loads store.projection request.sessionId receipt.result row message) :
    Runs (request.replay world) store (some (row.turn, message)) store ∧
    Runs (request.accept world resolved) store (row.turn, message, false)
      { store with drawn := store.drawn + 1 + 1 + 1 } := by
  constructor
  · apply Runs.bind (runs_lift hadmits store)
    apply Runs.bind (runs_reads _ store)
    rw [show store.selectCommandReceipt (.turn request.sessionId request.key) = some receipt
      from hfound]
    apply Runs.bind (runs_require hhash store)
    exact (hloads.runs hretryable.keyed).bind (runs_pure _ store)
  · obtain ⟨revision, hrevision⟩ := hretryable.sessionAgentRevision hloads.turn
    rw [hloads.session] at hrevision
    have hload : Runs (loadTurnResult request.sessionId receipt.result)
        { store with drawn := store.drawn + 1 + 1 + 1 } (row.turn, message)
        { store with drawn := store.drawn + 1 + 1 + 1 } := Loads.runs hloads hretryable.keyed
    apply Runs.bind (runs_lift hadmits store)
    apply Runs.bind (runs_lift hresolved store)
    apply Runs.bind (runs_acceptTurnIn_replay hrevision hfound hhash).atomically
    exact hload.bind (runs_pure _ _)

/-- The receipt of another request under the same key: both functions refuse. -/
theorem Retryable.accept_conflict (hhash : receipt.requestHash ≠ request.hash world) :
    Fails (request.replay world) store (.commandConflict request.commandId) store ∧
    Fails (request.accept world resolved) store (.commandConflict request.commandId)
      { store with drawn := store.drawn + 1 + 1 + 1 } := by
  constructor
  · apply Runs.fails (runs_lift hadmits store)
    apply Runs.fails (runs_reads _ store)
    rw [show store.selectCommandReceipt (.turn request.sessionId request.key) = some receipt
      from hfound]
    exact (fails_require hhash store).bind _
  · obtain ⟨row, message, hloads⟩ := hretryable.loads hfound
    obtain ⟨revision, hrevision⟩ := hretryable.sessionAgentRevision hloads.turn
    rw [hloads.session] at hrevision
    apply Runs.fails (runs_lift hadmits store)
    apply Runs.fails (runs_lift hresolved store)
    exact (fails_acceptTurnIn_conflict hrevision hfound hhash).atomically.bind _

end Meets

/-! ## The two functions together -/

/-- After its transaction an acceptance finds its Turn and message. -/
theorem Retryable.acceptTurnIn_loads (hretryable : store.Retryable) :
    ensures (acceptTurnIn world request.sessionId request.key request.content resolved
        request.metadata request.source) store fun outcome store' =>
      store'.Retryable ∧ store'.selectCommandReceipt request.commandId = some outcome.receipt ∧
      outcome.receipt.requestHash = request.hash world ∧
      outcome.wasReplayed = (store.selectCommandReceipt request.commandId).isSome ∧
      ∃ row message, Loads store'.projection request.sessionId outcome.receipt.result row message ∧
        Runs (loadTurnResult request.sessionId outcome.receipt.result) store' (row.turn, message)
          store' := by
  have haccept := @ensures_acceptTurnIn world Footprint.unrestricted request.sessionId store
    request.key request.content resolved request.metadata request.source fun _ _ _ => trivial
  refine ensures_mono haccept ?_
  rintro outcome store' ⟨hmoves, hfound, hhash, hreplayed⟩
  have hretryable' : store'.Retryable := hmoves.retryable hretryable
  obtain ⟨row, message, hloads⟩ := hretryable'.loads hfound
  exact ⟨hretryable', hfound, hhash, hreplayed, row, message, hloads, hloads.runs hretryable'.keyed⟩

theorem Retryable.ensures_accept (hretryable : store.Retryable) :
    ensures (request.accept world resolved) store fun outcome store' =>
      request.Admits world request.content ∧ store'.Retryable ∧
      outcome.2.2 = (store.selectCommandReceipt request.commandId).isNone ∧
      ∃ receipt row, store'.selectCommandReceipt request.commandId = some receipt ∧
        receipt.requestHash = request.hash world ∧ outcome.1 = row.turn ∧
        Loads store'.projection request.sessionId receipt.result row outcome.2.1 := by
  simp only [TurnRequest.accept, acceptTurnIdempotent, ensures_bind, ensures_lift,
    ensures_transaction, ensures_pure]
  intro _ hadmits _ _
  refine ensures_mono hretryable.acceptTurnIn_loads ?_
  rintro outcome store' ⟨hretryable', hfound, hhash, hreplayed, row, message, hloads, hload⟩
  refine hload.ensures.mpr ?_
  exact ⟨hadmits, hretryable', by rw [hreplayed]; simp, outcome.receipt, row, hfound, hhash, rfl,
    hloads⟩

/-- A rejected acceptance leaves every table as it was. -/
theorem Retryable.rollback_of_fails_accept (hretryable : store.Retryable) {error : StoreError}
    (hrun : Fails (request.accept world resolved) store error store') :
    store' = rollback store store' := by
  rw [TurnRequest.accept, acceptTurnIdempotent, fails_bind, fails_lift] at hrun
  rcases hrun with ⟨-, rfl⟩ | ⟨_, _, hadmits, hrun⟩
  · rfl
  obtain ⟨-, rfl⟩ := Prod.mk.inj hadmits
  rw [fails_bind, fails_lift] at hrun
  rcases hrun with ⟨-, rfl⟩ | ⟨_, _, hadmits, hrun⟩
  · rfl
  obtain ⟨-, rfl⟩ := Prod.mk.inj hadmits
  rw [fails_bind] at hrun
  rcases hrun with hrun | ⟨outcome, store'', hrun, hload⟩
  · exact rollback_of_fails (rollsBack_transaction _) hrun
  · have haccepted := (ensures_transaction _ _).mpr hretryable.acceptTurnIn_loads outcome store'' hrun
    obtain ⟨-, -, -, -, row, message, -, hloaded⟩ := haccepted
    rcases fails_bind.mp hload with hload | ⟨⟨_, _⟩, _, -, hload⟩
    · exact absurd hload hloaded.not_fails
    · cases hload

/-- How the outcomes of the two functions on one request fit together: a replay
is what the acceptance returns as not created, and they refuse alike. -/
def Agrees : Except StoreError (Option (Turn × Message)) →
    Except StoreError (Turn × Message × Bool) → Prop
  | .ok (some (turn, message)), accepted => accepted = .ok (turn, message, false)
  | .ok none, accepted =>
      (∃ turn message, accepted = .ok (turn, message, true)) ∨
      ∃ error, accepted = .error error ∧ error.isCommandConflict = false
  | .error error, accepted => accepted = .error error

theorem Retryable.refuses_accept (hretryable : store.Retryable)
    (hnone : store.selectCommandReceipt request.commandId = none) :
    refuses (request.accept world resolved) store fun error => error.isCommandConflict = false := by
  simp only [TurnRequest.accept, acceptTurnIdempotent, refuses_bind, refuses_lift, ensures_lift,
    refuses_pure, ensures_transaction]
  refine ⟨noConflict_validateTurnInput, fun _ _ => ⟨noConflict_validateTurnInput, fun _ _ =>
    ⟨refuses_atomically (refuses_acceptTurnIn hnone), ?_⟩⟩⟩
  refine ensures_mono hretryable.acceptTurnIn_loads ?_
  rintro outcome store' ⟨-, -, -, -, row, message, -, hload⟩
  exact ⟨fun error _ hfails => absurd hfails hload.not_fails, fun _ _ _ => trivial⟩

theorem Retryable.agrees (hretryable : store.Retryable) (hresolved : request.Admits world resolved) :
    Agrees (request.replay world store).1 (request.accept world resolved store).1 := by
  cases hadmits : validateTurnInput world request.key request.content request.metadata
      request.source with
  | error error =>
      have hfails : Fails (lift (validateTurnInput world request.key request.content
          request.metadata request.source)) store error store := fails_lift.mpr ⟨hadmits, rfl⟩
      have hreplay : Fails (request.replay world) store error store := hfails.bind _
      have haccept : Fails (request.accept world resolved) store error store := hfails.bind _
      rw [hreplay, haccept]
      rfl
  | ok _ =>
      cases hfound : store.selectCommandReceipt request.commandId with
      | none =>
          have hreplay : Runs (request.replay world) store none store := by
            apply Runs.bind (runs_lift hadmits store)
            apply Runs.bind (runs_reads _ store)
            rw [show store.selectCommandReceipt (.turn request.sessionId request.key) = none
              from hfound]
            exact runs_pure none store
          rw [hreplay]
          cases hrun : request.accept world resolved store with
          | mk accepted store' =>
              cases accepted with
              | ok outcome =>
                  obtain ⟨-, -, hcreated, -⟩ := hretryable.ensures_accept outcome store' hrun
                  rw [hfound] at hcreated
                  exact .inl ⟨outcome.1, outcome.2.1, by rw [← show outcome.2.2 = true from hcreated]⟩
              | error error =>
                  exact .inr ⟨error, rfl, hretryable.refuses_accept hfound error store' hrun⟩
      | some receipt =>
          by_cases hhash : receipt.requestHash = request.hash world
          · obtain ⟨row, message, hloads⟩ := hretryable.loads hfound
            obtain ⟨hreplay, haccept⟩ :=
              hretryable.accept_replay hadmits hresolved hfound hhash hloads
            rw [hreplay, haccept]
            rfl
          · obtain ⟨hreplay, haccept⟩ := hretryable.accept_conflict hadmits hresolved hfound hhash
            rw [hreplay, haccept]
            rfl

/-- Looking a request up writes nothing. -/
theorem replay_reads : (request.replay world store).2 = store := by
  let unchanged : Store → Store → Prop := fun store store' => store' = store
  have hrefl : ∀ store, unchanged store store := fun _ => rfl
  have hseq : ∀ {A B : Type} {first : Action A} {next : A → Action B}, Preserves unchanged first →
      (∀ value, Preserves unchanged (next value)) → Preserves unchanged (first >>= next) :=
    fun hfirst hnext => .bind (fun _ _ _ hfirst hsecond => hsecond.trans hfirst) hfirst hnext
  have hload : ∀ result, Preserves unchanged (loadTurnResult request.sessionId result) := by
    intro result
    cases result with
    | turn turnId entryId =>
        refine hseq (hseq (preserves_reads hrefl _) fun _ => preserves_lift hrefl _) fun _ => ?_
        refine hseq (hseq (preserves_reads hrefl _) fun _ => preserves_lift hrefl _) fun _ => ?_
        exact hseq (preserves_lift hrefl _) fun _ => preserves_pure hrefl _
    | _ => exact preserves_fail hrefl _
  have hreplay : Preserves unchanged (request.replay world) := by
    refine hseq (preserves_lift hrefl _) fun _ => hseq (preserves_reads hrefl _) fun found => ?_
    cases found with
    | none => exact preserves_pure hrefl _
    | some receipt =>
        exact hseq (preserves_require hrefl _ _) fun _ => hseq (hload _) fun _ =>
          preserves_pure hrefl _
  exact hreplay store

/-- Turn acceptance retries.  An acceptance that fails leaves every table as it
was.  After one that succeeds and whatever comes later, looking the request up
and accepting it again both return the Turn of the first acceptance, as it now
stands, and its message, and another request under the same key is a conflict;
none of these changes a table.  At every request the two functions agree.  The
content a request is resolved to has to be admissible, since an acceptance
checks it before it looks for the receipt. -/
theorem turn_acceptance_retries (world : World) (ops : List StoreOp) (request : TurnRequest)
    (resolved : MessageContent) :
    let store := run world ops
    (request.Admits world resolved →
      Agrees (request.replay world store).1 (request.accept world resolved store).1) ∧
    (request.replay world store).2 = store ∧
    (∀ error store', Fails (request.accept world resolved) store error store' →
      store' = rollback store store') ∧
    ∀ turn message created store',
      Runs (request.accept world resolved) store (turn, message, created) store' →
      ∀ later, let final := runFrom world store' later
        ∃ turn', turn'.id = turn.id ∧ turn'.sessionId = turn.sessionId ∧
          turn'.agentRevision = turn.agentRevision ∧ turn'.createdAt = turn.createdAt ∧
          final.projection.selectTurn turn.id = .ok turn' ∧
          Runs (request.replay world) final (some (turn', message)) final ∧
          (∀ resolved', request.Admits world resolved' → ∃ final',
            Runs (request.accept world resolved') final (turn', message, false) final' ∧
            final' = rollback final final') ∧
          ∀ other : TurnRequest, other.commandId = request.commandId →
            other.Admits world other.content → other.hash world ≠ request.hash world →
            Fails (other.replay world) final (.commandConflict request.commandId) final ∧
            ∀ resolved', other.Admits world resolved' → ∃ final',
              Fails (other.accept world resolved') final (.commandConflict request.commandId)
                final' ∧
              final' = rollback final final' := by
  intro store
  have hretryable : store.Retryable := run_retryable world ops
  refine ⟨hretryable.agrees, replay_reads, fun _ _ => hretryable.rollback_of_fails_accept, ?_⟩
  intro turn message created store' hrun later final
  obtain ⟨hadmits, hretryable', -, receipt, row, hfound, hhash, rfl, hloads⟩ :=
    hretryable.ensures_accept (turn, message, created) store' hrun
  have hmoves := runFrom_moves world hretryable'.keyed later
  have hfinal : final.Retryable := hmoves.retryable hretryable'
  have hfound' : final.selectCommandReceipt request.commandId = some receipt :=
    hmoves.receipt_kept hfound
  obtain ⟨row', hcontinues, hloads'⟩ := hloads.keeps (hmoves.keeps hretryable'.keyed)
  refine ⟨row'.turn, hcontinues.id, hcontinues.session, hcontinues.revision, hcontinues.created,
    ?_, ?_, ?_, ?_⟩
  · rw [← hcontinues.id, selectTurn, hfinal.keyed.turns.find?_eq_some hloads'.turn]
  · exact (hfinal.accept_replay hadmits hadmits hfound' hhash hloads').1
  · intro resolved' hresolved'
    exact ⟨_, (hfinal.accept_replay hadmits hresolved' hfound' hhash hloads').2, rfl⟩
  · intro other hcommand hother hdiffers
    rw [← hcommand] at hfound' ⊢
    have hhash' : receipt.requestHash ≠ other.hash world := by
      rw [hhash]
      exact hdiffers.symm
    refine ⟨(hfinal.accept_conflict hother hother hfound' hhash').1, fun resolved' hresolved' => ?_⟩
    exact ⟨_, (hfinal.accept_conflict hother hresolved' hfound' hhash').2, rfl⟩

/-- An accepted request that is made again with content resolved to an empty
text is refused, although its receipt is there. -/
theorem retry_with_empty_resolution :
    let context : CommandContext := { commandId := "1", actor := .system, correlationId := none }
    let store := run World.numbered
      [.initializeHub context "hub" "a" "b" "c", .createAgent context "mews" "soul" "native" ⟨"1"⟩,
        .createSession ⟨"7"⟩ ⟨"1"⟩ "/"]
    let request : TurnRequest :=
      { sessionId := ⟨"10"⟩, key := "key", content := .text "hello", metadata := .null
        source := { kind := .client, id := "cli", channelOrigin := none } }
    let (accepted, store') := request.accept World.numbered (.text "hello") store
    accepted.isOk = true ∧
    (request.replay World.numbered store').1.isOk = true ∧
    (request.accept World.numbered (.text "") store').1.isOk = false := by
  decide +kernel

end Store

end Mews
