import Mews.Store.Runs

/-!
# What a subscriber receives

A durable consumer polls the client events of its Sessions and acknowledges how far it has
read.  Whatever else happens in the Store, an event that is published while it is subscribed
is kept until the consumer has received and acknowledged it, and events are received in the
order of their sequence.
-/

namespace Mews

open Protocol Table Tx

namespace Store

/-- Sequences grow, and no cursor is ahead of the watermark. -/
structure Sequenced (store : Store) : Prop where
  sorted : store.clientEvents.Pairwise fun earlier later => earlier.sequence < later.sequence
  bounded : ∀ row ∈ store.clientEvents, row.sequence ≤ store.clientEventSequence
  cursors : ∀ consumer ∈ store.clientConsumers, consumer.cursor ≤ store.clientEventSequence
  unique : Unique ConsumerRow.id store.clientConsumers

/-- A durable consumer is subscribed to the Session and has read up to `cursor`. -/
structure Watches (store : Store) (consumerId : ConsumerId) (sessionId : SessionId)
    (cursor : Nat) : Prop where
  consumer : ∃ consumer ∈ store.clientConsumers,
    consumer.id = consumerId ∧ consumer.kind = .durable ∧ consumer.cursor = cursor
  subscribed : ⟨consumerId, sessionId⟩ ∈ store.clientSubscriptions

/-- An event of the Session that is not transient. -/
structure Concerns (row : ClientEventRow) (sessionId : SessionId) : Prop where
  durable : row.transient = false
  session : row.body.sessionId = sessionId

section Moves

variable {world : World} {footprint : Footprint} {store store' : Store} {consumerId : ConsumerId}
  {sessionId : SessionId} {cursor : Nat} {row : ClientEventRow}

theorem sequenced_empty : Sequenced empty where
  sorted := List.Pairwise.nil
  bounded := by
    intro row hrow
    cases hrow
  cursors := by
    intro consumer hconsumer
    cases hconsumer
  unique := unique_nil

theorem Sequenced.congr (hstore : Sequenced store)
    (hevents : store'.clientEvents = store.clientEvents)
    (hsequence : store'.clientEventSequence = store.clientEventSequence)
    (hconsumers : store'.clientConsumers = store.clientConsumers) : Sequenced store' := by
  constructor
  · rw [hevents]
    exact hstore.sorted
  · rw [hevents, hsequence]
    exact hstore.bounded
  · rw [hconsumers, hsequence]
    exact hstore.cursors
  · rw [hconsumers]
    exact hstore.unique

theorem Sequenced.filter (hstore : Sequenced store) (keep : ClientEventRow → Bool) :
    Sequenced { store with clientEvents := store.clientEvents.filter keep } where
  sorted := hstore.sorted.filter _
  bounded row hrow := hstore.bounded row (List.mem_of_mem_filter hrow)
  cursors := hstore.cursors
  unique := hstore.unique

theorem Sequenced.skip (hstore : Sequenced store) :
    Sequenced { store with clientEventSequence := store.clientEventSequence + 1 } where
  sorted := hstore.sorted
  bounded row hrow := Nat.le_succ_of_le (hstore.bounded row hrow)
  cursors consumer hconsumer := Nat.le_succ_of_le (hstore.cursors consumer hconsumer)
  unique := hstore.unique

/-- An event that is published is the last. -/
theorem Sequenced.append (hstore : Sequenced store)
    (hsequence : row.sequence = store.clientEventSequence + 1) :
    Sequenced { store with
      clientEvents := store.clientEvents ++ [row]
      clientEventSequence := store.clientEventSequence + 1 } where
  sorted := by
    rw [List.pairwise_append]
    refine ⟨hstore.sorted, List.pairwise_singleton _ _, ?_⟩
    intro earlier hearlier later hlater
    rw [List.mem_singleton.mp hlater, hsequence]
    exact Nat.lt_succ_of_le (hstore.bounded earlier hearlier)
  bounded other hother := by
    rcases List.mem_append.mp hother with hold | hnew
    · exact Nat.le_succ_of_le (hstore.bounded other hold)
    · rw [List.mem_singleton.mp hnew, hsequence]
  cursors consumer hconsumer := Nat.le_succ_of_le (hstore.cursors consumer hconsumer)
  unique := hstore.unique

theorem Sequenced.publish (hstore : Sequenced store) {entry : JournalEntry}
    {delivery : Option Delivery} : Sequenced (store.publish sessionId entry delivery) := by
  cases delivery with
  | none => exact hstore
  | some delivery => exact hstore.append rfl

theorem Sequenced.touch (hstore : Sequenced store) {move : Nat → Nat} {now : DateTime}
    (hmove : ∀ cursor ≤ store.clientEventSequence, move cursor ≤ store.clientEventSequence) :
    Sequenced (touchConsumer consumerId move now store) where
  sorted := hstore.sorted
  bounded := hstore.bounded
  cursors consumer hconsumer := by
    obtain ⟨old, hold, rfl⟩ := mem_updateWhere.mp hconsumer
    have hcursor := hstore.cursors old hold
    split_ifs
    · exact hmove _ hcursor
    · exact hcursor
  unique := by
    have hid (consumer : ConsumerRow) :
        ConsumerRow.id { consumer with cursor := move consumer.cursor, lastSeenAt := now } =
          consumer.id := rfl
    exact (unique_updateWhere hid).mpr hstore.unique

theorem Sequenced.remove (hstore : Sequenced store) (gone : ConsumerRow → Bool) :
    Sequenced (store.removeConsumers gone) where
  sorted := hstore.sorted
  bounded := hstore.bounded
  cursors consumer hconsumer := hstore.cursors consumer (List.mem_of_mem_filter hconsumer)
  unique := hstore.unique.filter _

/-- The largest sequence is that of a row. -/
theorem foldr_max_le {rows : List ClientEventRow} {bound : Nat}
    (hrows : ∀ row ∈ rows, row.sequence ≤ bound) :
    (rows.map (·.sequence)).foldr max 0 ≤ bound := by
  induction rows with
  | nil => exact Nat.zero_le bound
  | cons row rows ih =>
      exact max_le (hrows row List.mem_cons_self)
        (ih fun other hother => hrows other (List.mem_cons_of_mem row hother))

theorem DeliveryMove.sequenced (hmove : DeliveryMove footprint store store')
    (hstore : Sequenced store) : Sequenced store' := by
  cases hmove with
  | signalled body key hid hkey => exact hstore.append rfl
  | ignored => exact hstore.skip
  | transientDropped => exact hstore.filter _
  | pruned => exact hstore.filter _
  | consumerAdded consumerId kind now hnew =>
      refine ⟨hstore.sorted, hstore.bounded, ?_, ?_⟩
      · intro consumer hconsumer
        rcases List.mem_append.mp hconsumer with hold | hadded
        · exact hstore.cursors consumer hold
        · rw [List.mem_singleton.mp hadded]
          exact foldr_max_le hstore.bounded
      · refine unique_append_singleton.mpr ⟨hstore.unique, fun other hother => ?_⟩
        have hfree := List.find?_eq_none.mp hnew other hother
        simpa using hfree
  | consumerTouched consumerId now => exact hstore.touch fun _ hcursor => hcursor
  | acknowledged consumerId checkpoint now hcheckpoint _ =>
      exact hstore.touch fun _ hcursor => max_le hcheckpoint hcursor
  | consumersRemoved gone _ => exact hstore.remove gone
  | subscribed consumerId sessionId => exact hstore.congr rfl rfl rfl
  | unsubscribed gone _ => exact hstore.congr rfl rfl rfl

theorem Move.sequenced (hmove : Move world footprint store store') (hstore : Sequenced store) :
    Sequenced store' := by
  cases hmove with
  | drew drawn => exact hstore.congr rfl rfl rfl
  | projected sessionId entry tables delivery _ _ _ _ _ _ _ _ =>
      have hprojected : Sequenced { store with
          journalEntries := store.journalEntries ++ [entry], projection := tables } :=
        hstore.congr rfl rfl rfl
      exact hprojected.publish
  | aggregated entries tables _ _ _ _ _ _ _ => exact hstore.congr rfl rfl rfl
  | received receipt _ _ => exact hstore.congr rfl rfl rfl
  | delivered _ hmove => exact hmove.sequenced hstore

theorem Moves.sequenced (hmoves : Moves world footprint store store') (hstore : Sequenced store) :
    Sequenced store' := by
  induction hmoves with
  | refl => exact hstore
  | tail _ hmove ih => exact hmove.sequenced ih

/-! ## What moves keep -/

/-- What happens to the events of a Session while a consumer watches it. -/
structure Guards (footprint : Footprint) (consumerId : ConsumerId) (sessionId : SessionId)
    (store : Store) (cursor : Nat) (store' : Store) (cursor' : Nat) : Prop where
  watches : store'.Watches consumerId sessionId cursor'
  le : cursor ≤ cursor'
  acknowledged : cursor' = cursor ∨ footprint.acknowledges consumerId cursor'
  kept : ∀ row ∈ store.clientEvents, Concerns row sessionId → cursor' < row.sequence →
    row ∈ store'.clientEvents
  added : ∀ row ∈ store'.clientEvents, row ∈ store.clientEvents ∨
    store.clientEventSequence < row.sequence
  grows : store.clientEventSequence ≤ store'.clientEventSequence

theorem Guards.refl (hwatches : store.Watches consumerId sessionId cursor) :
    Guards footprint consumerId sessionId store cursor store cursor where
  watches := hwatches
  le := le_rfl
  acknowledged := Or.inl rfl
  kept _ hrow _ _ := hrow
  added _ hrow := Or.inl hrow
  grows := le_rfl

theorem Guards.trans {last : Store} {cursor' last' : Nat}
    (hfirst : Guards footprint consumerId sessionId store cursor store' cursor')
    (hsecond : Guards footprint consumerId sessionId store' cursor' last last') :
    Guards footprint consumerId sessionId store cursor last last' where
  watches := hsecond.watches
  le := hfirst.le.trans hsecond.le
  acknowledged := by
    rcases hsecond.acknowledged with hsame | hacknowledged
    · rw [hsame]
      exact hfirst.acknowledged
    · exact Or.inr hacknowledged
  kept row hrow hconcerns hlater :=
    hsecond.kept row (hfirst.kept row hrow hconcerns (hsecond.le.trans_lt hlater)) hconcerns hlater
  added row hrow := by
    rcases hsecond.added row hrow with hold | hnew
    · exact hfirst.added row hold
    · exact Or.inr (hfirst.grows.trans_lt hnew)
  grows := hfirst.grows.trans hsecond.grows

theorem Watches.congr (hwatches : store.Watches consumerId sessionId cursor)
    (hconsumers : store.clientConsumers ⊆ store'.clientConsumers)
    (hsubscriptions : store.clientSubscriptions ⊆ store'.clientSubscriptions) :
    store'.Watches consumerId sessionId cursor := by
  obtain ⟨⟨consumer, hconsumer, hrow⟩, hsubscribed⟩ := hwatches
  exact ⟨⟨consumer, hconsumers hconsumer, hrow⟩, hsubscriptions hsubscribed⟩

/-- A move that keeps the consumer and the rows it has not acknowledged. -/
theorem Guards.of_watches (hwatches : store'.Watches consumerId sessionId cursor)
    (hkept : ∀ row ∈ store.clientEvents, Concerns row sessionId → cursor < row.sequence →
      row ∈ store'.clientEvents)
    (hadded : ∀ row ∈ store'.clientEvents, row ∈ store.clientEvents ∨
      store.clientEventSequence < row.sequence)
    (hgrows : store.clientEventSequence ≤ store'.clientEventSequence) :
    Guards footprint consumerId sessionId store cursor store' cursor :=
  ⟨hwatches, le_rfl, Or.inl rfl, hkept, hadded, hgrows⟩

/-- An event that a subscribed durable consumer has not acknowledged is not pruned. -/
theorem Watches.not_prunable (hwatches : store.Watches consumerId sessionId cursor)
    (hconcerns : Concerns row sessionId) (hlater : cursor < row.sequence) :
    store.prunable row = false := by
  obtain ⟨⟨consumer, hconsumer, hid, hkind, hcursor⟩, hsubscribed⟩ := hwatches
  have hwatcher : consumer ∈ store.watchers row.body.sessionId := by
    refine List.mem_filter.mpr ⟨hconsumer, List.any_eq_true.mpr ⟨_, hsubscribed, ?_⟩⟩
    simp [hid, hconcerns.session]
  have hdurable : consumer ∈ (store.watchers row.body.sessionId).filter
      fun consumer => consumer.kind = .durable := List.mem_filter.mpr ⟨hwatcher, by simpa⟩
  have hsome := List.ne_nil_of_mem hdurable
  rw [prunable, hconcerns.durable]
  simp only [Bool.false_eq_true, if_false, if_pos hsome]
  rw [← Bool.not_eq_true, List.all_eq_true]
  intro hall
  have hread := hall consumer hdurable
  rw [hcursor, decide_eq_true_iff] at hread
  omega

theorem Watches.touch (hwatches : store.Watches consumerId sessionId cursor) {other : ConsumerId}
    {move : Nat → Nat} {now : DateTime} :
    (touchConsumer other move now store).Watches consumerId sessionId
      (if consumerId = other then move cursor else cursor) := by
  obtain ⟨⟨consumer, hconsumer, hid, hkind, hcursor⟩, hsubscribed⟩ := hwatches
  refine ⟨⟨_, mem_updateWhere.mpr ⟨consumer, hconsumer, rfl⟩, ?_⟩, hsubscribed⟩
  by_cases hother : consumerId = other
  · simp [hid, hother, hkind, hcursor]
  · simp [hid, hother, hkind, hcursor]

/-- Only a consumer that is not durable is removed without having left. -/
theorem Watches.remove (hwatches : store.Watches consumerId sessionId cursor)
    (hunique : Unique ConsumerRow.id store.clientConsumers) {gone : ConsumerRow → Bool}
    (hgone : ∀ consumer ∈ store.clientConsumers, gone consumer = true →
      consumer.kind = .ephemeral ∨ ∀ session, footprint.leaving consumer.id session)
    (hstays : ¬ footprint.leaving consumerId sessionId) :
    (store.removeConsumers gone).Watches consumerId sessionId cursor := by
  obtain ⟨⟨consumer, hconsumer, hid, hkind, hcursor⟩, hsubscribed⟩ := hwatches
  have hkept : gone consumer = false := by
    rw [← Bool.not_eq_true]
    intro hremoved
    rcases hgone consumer hconsumer hremoved with hephemeral | hleaving
    · rw [hkind] at hephemeral
      cases hephemeral
    · exact hstays (hid ▸ hleaving sessionId)
  refine ⟨⟨consumer, List.mem_filter.mpr ⟨hconsumer, by rw [hkept]; rfl⟩, hid, hkind, hcursor⟩, ?_⟩
  refine List.mem_filter.mpr ⟨hsubscribed, ?_⟩
  rw [Bool.not_eq_true', List.any_eq_false]
  intro other hother hremoved
  rw [Bool.and_eq_true, decide_eq_true_iff] at hremoved
  obtain rfl := hunique.eq_of_mem hother hconsumer (hremoved.1.trans hid.symm)
  rw [hkept] at hremoved
  cases hremoved.2

theorem DeliveryMove.guards (hmove : DeliveryMove footprint store store')
    (hunique : Unique ConsumerRow.id store.clientConsumers)
    (hstays : ¬ footprint.leaving consumerId sessionId)
    (hwatches : store.Watches consumerId sessionId cursor) :
    ∃ cursor', Guards footprint consumerId sessionId store cursor store' cursor' := by
  cases hmove with
  | signalled body key hid hkey =>
      refine ⟨cursor, .of_watches (hwatches.congr (List.Subset.refl _) (List.Subset.refl _)) ?_ ?_
        (Nat.le_succ _)⟩
      · exact fun row hrow _ _ => List.mem_append_left _ hrow
      · intro row hrow
        rcases List.mem_append.mp hrow with hold | hnew
        · exact Or.inl hold
        · rw [List.mem_singleton.mp hnew]
          exact Or.inr (Nat.lt_succ_self _)
  | ignored =>
      exact ⟨cursor, .of_watches (hwatches.congr (List.Subset.refl _) (List.Subset.refl _))
        (fun _ hrow _ _ => hrow) (fun _ hrow => Or.inl hrow) (Nat.le_succ _)⟩
  | transientDropped =>
      refine ⟨cursor, .of_watches (hwatches.congr (List.Subset.refl _) (List.Subset.refl _)) ?_ ?_
        le_rfl⟩
      · intro row hrow hconcerns _
        exact List.mem_filter.mpr ⟨hrow, by rw [hconcerns.durable]; rfl⟩
      · exact fun row hrow => Or.inl (List.mem_of_mem_filter hrow)
  | pruned =>
      refine ⟨cursor, .of_watches (hwatches.congr (List.Subset.refl _) (List.Subset.refl _)) ?_ ?_
        le_rfl⟩
      · intro row hrow hconcerns hlater
        refine List.mem_filter.mpr ⟨hrow, ?_⟩
        rw [hwatches.not_prunable hconcerns hlater]
        rfl
      · exact fun row hrow => Or.inl (List.mem_of_mem_filter hrow)
  | consumerAdded other kind now hnew =>
      exact ⟨cursor, .of_watches (hwatches.congr (List.subset_append_left _ _) (List.Subset.refl _))
        (fun _ hrow _ _ => hrow) (fun _ hrow => Or.inl hrow) le_rfl⟩
  | consumerTouched other now =>
      refine ⟨cursor, .of_watches ?_ (fun _ hrow _ _ => hrow) (fun _ hrow => Or.inl hrow) le_rfl⟩
      have htouched : (touchConsumer other id now store).Watches consumerId sessionId
          (if consumerId = other then id cursor else cursor) := hwatches.touch
      rwa [id_eq, ite_self] at htouched
  | acknowledged other checkpoint now hcheckpoint hacknowledges =>
      refine ⟨_, hwatches.touch, ?_, ?_, fun _ hrow _ _ => hrow, fun _ hrow => Or.inl hrow, le_rfl⟩
      · split_ifs
        · exact le_max_right _ _
        · exact le_rfl
      · split_ifs with hother
        · rcases le_total checkpoint cursor with hle | hle
          · exact Or.inl (max_eq_right hle)
          · rw [max_eq_left hle, hother]
            exact Or.inr hacknowledges
        · exact Or.inl rfl
  | consumersRemoved gone hgone =>
      exact ⟨cursor, .of_watches (hwatches.remove hunique hgone hstays) (fun _ hrow _ _ => hrow)
        (fun _ hrow => Or.inl hrow) le_rfl⟩
  | subscribed other session =>
      exact ⟨cursor, .of_watches (hwatches.congr (List.Subset.refl _) (List.subset_append_left _ _))
        (fun _ hrow _ _ => hrow) (fun _ hrow => Or.inl hrow) le_rfl⟩
  | unsubscribed gone hgone =>
      refine ⟨cursor, .of_watches ⟨hwatches.consumer, List.mem_filter.mpr ⟨hwatches.subscribed, ?_⟩⟩
        (fun _ hrow _ _ => hrow) (fun _ hrow => Or.inl hrow) le_rfl⟩
      rw [Bool.not_eq_true', ← Bool.not_eq_true]
      exact fun hleft => hstays (hgone _ hwatches.subscribed hleft)

theorem Guards.publish {delivery : Option Delivery} {entry : JournalEntry}
    (hwatches : store.Watches consumerId sessionId cursor) {session : SessionId} :
    Guards footprint consumerId sessionId store cursor (store.publish session entry delivery)
      cursor := by
  cases delivery with
  | none => exact .refl hwatches
  | some delivery =>
      refine .of_watches (hwatches.congr (List.Subset.refl _) (List.Subset.refl _)) ?_ ?_
        (Nat.le_succ _)
      · exact fun row hrow _ _ => List.mem_append_left _ hrow
      · intro row hrow
        rcases List.mem_append.mp hrow with hold | hnew
        · exact Or.inl hold
        · rw [List.mem_singleton.mp hnew]
          exact Or.inr (Nat.lt_succ_self _)

theorem Move.guards (hmove : Move world footprint store store')
    (hunique : Unique ConsumerRow.id store.clientConsumers)
    (hstays : ¬ footprint.leaving consumerId sessionId)
    (hwatches : store.Watches consumerId sessionId cursor) :
    ∃ cursor', Guards footprint consumerId sessionId store cursor store' cursor' := by
  cases hmove with
  | drew drawn =>
      exact ⟨cursor, .of_watches (hwatches.congr (List.Subset.refl _) (List.Subset.refl _))
        (fun _ hrow _ _ => hrow) (fun _ hrow => Or.inl hrow) le_rfl⟩
  | projected session entry tables delivery _ _ _ _ _ _ _ _ =>
      have hprojected : Watches { store with
          journalEntries := store.journalEntries ++ [entry], projection := tables }
          consumerId sessionId cursor :=
        hwatches.congr (List.Subset.refl _) (List.Subset.refl _)
      have hpublished : Guards footprint consumerId sessionId { store with
          journalEntries := store.journalEntries ++ [entry], projection := tables } cursor
          (publish { store with
            journalEntries := store.journalEntries ++ [entry], projection := tables }
            session entry delivery) cursor := .publish hprojected
      obtain ⟨hwatches', hle, hacknowledged, hkept, hadded, hgrows⟩ := hpublished
      exact ⟨cursor, hwatches', hle, hacknowledged, hkept, hadded, hgrows⟩
  | aggregated entries tables _ _ _ _ _ _ _ =>
      exact ⟨cursor, .of_watches (hwatches.congr (List.Subset.refl _) (List.Subset.refl _))
        (fun _ hrow _ _ => hrow) (fun _ hrow => Or.inl hrow) le_rfl⟩
  | received receipt _ _ =>
      exact ⟨cursor, .of_watches (hwatches.congr (List.Subset.refl _) (List.Subset.refl _))
        (fun _ hrow _ _ => hrow) (fun _ hrow => Or.inl hrow) le_rfl⟩
  | delivered _ hmove => exact hmove.guards hunique hstays hwatches

theorem Moves.guards (hmoves : Moves world footprint store store') (hstore : Sequenced store)
    (hstays : ¬ footprint.leaving consumerId sessionId)
    (hwatches : store.Watches consumerId sessionId cursor) :
    ∃ cursor', Guards footprint consumerId sessionId store cursor store' cursor' := by
  induction hmoves with
  | refl => exact ⟨cursor, .refl hwatches⟩
  | tail hmoves hmove ih =>
      obtain ⟨middle, hguards⟩ := ih
      obtain ⟨cursor', hlast⟩ :=
        hmove.guards (Moves.sequenced hmoves hstore).unique hstays hguards.watches
      exact ⟨cursor', hguards.trans hlast⟩

theorem step_sequenced (hkeyed : store.projection.Keyed) (hstore : Sequenced store) (op : StoreOp) :
    Sequenced (step world store op) :=
  (step_moves world hkeyed op).sequenced hstore

theorem run_sequenced (world : World) (ops : List StoreOp) : Sequenced (run world ops) :=
  (runFrom_moves world Projection.keyed_empty ops).sequenced sequenced_empty

end Moves

/-! ## Polling -/

section Polling

variable {world : World} {store store' : Store} {consumerId : ConsumerId} {sessionId : SessionId}
  {cursor limit : ℕ} {batch : EventBatch} {rows page : List ClientEventRow}

theorem eventPage_begins {payloadBytes : Option ℕ}
    (hpage : eventPage world payloadBytes rows = .ok page) : page <+: rows := by
  induction rows generalizing payloadBytes page with
  | nil =>
      cases hpage
      exact List.prefix_rfl
  | cons row rows ih =>
      cases payloadBytes with
      | none =>
          simp only [eventPage, bind_eq_ok, pure_eq_ok] at hpage
          obtain ⟨_, -, rest, hrest, rfl⟩ := hpage
          exact (List.prefix_cons_inj row).mpr (ih hrest)
      | some total =>
          simp only [eventPage, bind_eq_ok] at hpage
          obtain ⟨_, -, hpage⟩ := hpage
          split_ifs at hpage
          · cases hpage
            exact List.nil_prefix
          · simp only [bind_eq_ok, pure_eq_ok] at hpage
            obtain ⟨rest, hrest, rfl⟩ := hpage
            exact (List.prefix_cons_inj row).mpr (ih hrest)

theorem Watches.findConsumer (hwatches : store.Watches consumerId sessionId cursor)
    (hunique : Unique ConsumerRow.id store.clientConsumers) :
    ∃ consumer, store.findConsumer consumerId = some consumer ∧ consumer.cursor = cursor := by
  obtain ⟨⟨consumer, hconsumer, rfl, -, hcursor⟩, -⟩ := hwatches
  exact ⟨consumer, hunique.find?_eq_some hconsumer, hcursor⟩

/-- A poll returns all events up to its checkpoint that the consumer has not acknowledged, and
one at least if there are any. -/
structure Polled (store : Store) (consumerId : ConsumerId) (cursor limit : ℕ)
    (batch : EventBatch) : Prop where
  le : cursor ≤ batch.checkpoint
  bounded : batch.checkpoint ≤ store.clientEventSequence
  sorted : batch.events.Pairwise fun earlier later => earlier.sequence < later.sequence
  offered : ∀ event ∈ batch.events, cursor < event.sequence ∧ event.sequence ≤ batch.checkpoint
  complete : ∀ row ∈ store.clientEvents,
    ⟨consumerId, row.body.sessionId⟩ ∈ store.clientSubscriptions →
    cursor < row.sequence → row.sequence ≤ batch.checkpoint → row.event ∈ batch.events
  progress : 0 < limit → batch.events = [] → store.pendingEvents consumerId cursor = []

/-- How far a page reaches that is read from `cursor` on. -/
def reach (cursor : ℕ) (page : List ClientEventRow) : ℕ :=
  (page.getLast?.map (·.sequence)).getD cursor

/-- A page holds the rows up to its last one. -/
theorem mem_page_iff
    (hsorted : rows.Pairwise fun earlier later => earlier.sequence < later.sequence)
    (hlater : ∀ row ∈ rows, cursor < row.sequence) (hpage : page <+: rows) {row : ClientEventRow}
    (hrow : row ∈ rows) : row ∈ page ↔ row.sequence ≤ reach cursor page := by
  obtain ⟨rest, rfl⟩ := hpage
  have hbetween := (List.pairwise_append.mp hsorted).2.2
  rcases List.eq_nil_or_concat' page with rfl | ⟨front, last, rfl⟩
  · have hrow := hlater row hrow
    simp only [List.not_mem_nil, reach, List.getLast?_nil, Option.map_none, Option.getD_none,
      false_iff]
    omega
  · have hlast : reach cursor (front ++ [last]) = last.sequence := by simp [reach]
    rw [hlast]
    constructor
    · intro hmem
      rcases List.mem_append.mp hmem with hfront | hsame
      · have hpage := (List.pairwise_append.mp hsorted).1
        exact ((List.pairwise_append.mp hpage).2.2 row hfront last List.mem_cons_self).le
      · rw [List.mem_singleton.mp hsame]
    · intro hle
      by_contra hmissing
      have hrest := (List.mem_append.mp hrow).resolve_left hmissing
      have hlt := hbetween last (List.mem_append_right _ List.mem_cons_self) row hrest
      omega

theorem eventPage_ne_nil (hpage : eventPage world none rows = .ok []) : rows = [] := by
  cases rows with
  | nil => rfl
  | cons row rows =>
      simp only [eventPage, bind_eq_ok, pure_eq_ok] at hpage
      obtain ⟨_, -, rest, -, hpage⟩ := hpage
      cases hpage

theorem pollClientEvents_polled (hstore : Sequenced store)
    (hpoll : pollClientEvents world consumerId limit store = (.ok batch, store')) :
    ∃ consumer, store.findConsumer consumerId = some consumer ∧
      Polled store consumerId consumer.cursor limit batch := by
  have hruns : Runs (pollClientEvents world consumerId limit) store batch store' := hpoll
  simp only [pollClientEvents, runs_bind, runs_reads_iff, runs_expect_iff, runs_modify_iff,
    runs_lift_iff, runs_pure_iff] at hruns
  obtain ⟨now, _, hnow, _, _, ⟨rfl, rfl⟩, consumer, _, ⟨hfind, rfl⟩, _, _, rfl, _, _, ⟨rfl, rfl⟩,
    page, _, ⟨hpage, rfl⟩, rfl, rfl⟩ := hruns
  cases hnow
  have hfind : store.findConsumer consumerId = some consumer := hfind
  refine ⟨consumer, hfind, ?_⟩
  have hbegins : page <+: store.pendingEvents consumerId consumer.cursor :=
    (eventPage_begins hpage).trans (List.take_prefix _ _)
  have hsorted : (store.pendingEvents consumerId consumer.cursor).Pairwise
      fun earlier later => earlier.sequence < later.sequence := hstore.sorted.filter _
  have hpending (row : ClientEventRow)
      (hrow : row ∈ store.pendingEvents consumerId consumer.cursor) :
      row ∈ store.clientEvents ∧ consumer.cursor < row.sequence := by
    have hrow := List.mem_filter.mp hrow
    rw [decide_eq_true_iff] at hrow
    exact ⟨hrow.1, hrow.2.1⟩
  have hmem (row : ClientEventRow) (hrow : row ∈ store.pendingEvents consumerId consumer.cursor) :
      row ∈ page ↔ row.sequence ≤ reach consumer.cursor page :=
    mem_page_iff hsorted (fun row hrow => (hpending row hrow).2) hbegins hrow
  have hreach : consumer.cursor ≤ reach consumer.cursor page ∧
      reach consumer.cursor page ≤ store.clientEventSequence := by
    rcases List.eq_nil_or_concat' page with rfl | ⟨front, last, rfl⟩
    · exact ⟨le_rfl, hstore.cursors consumer (List.mem_of_find?_eq_some hfind)⟩
    · have hlast := hpending last (hbegins.subset (List.mem_append_right _ List.mem_cons_self))
      have hreach : reach consumer.cursor (front ++ [last]) = last.sequence := by simp [reach]
      rw [hreach]
      exact ⟨hlast.2.le, hstore.bounded last hlast.1⟩
  refine ⟨hreach.1, hreach.2, ?_, ?_, ?_, ?_⟩
  · exact List.pairwise_map.mpr (hsorted.sublist hbegins.sublist)
  · intro event hevent
    obtain ⟨row, hrow, rfl⟩ := List.mem_map.mp hevent
    have hrows := hbegins.subset hrow
    exact ⟨(hpending row hrows).2, (hmem row hrows).mp hrow⟩
  · intro row hrow hsubscribed hlater hle
    have hrows : row ∈ store.pendingEvents consumerId consumer.cursor := by
      refine List.mem_filter.mpr ⟨hrow, ?_⟩
      rw [decide_eq_true_iff]
      exact ⟨hlater, List.any_eq_true.mpr ⟨_, hsubscribed, by simp⟩⟩
    exact List.mem_map_of_mem ((hmem row hrows).mpr hle)
  · intro hlimit hnone
    rw [List.map_eq_nil_iff] at hnone
    rw [hnone] at hpage
    have htaken := eventPage_ne_nil hpage
    rw [List.take_eq_nil_iff] at htaken
    exact htaken.resolve_left hlimit.ne'

end Polling

/-! ## Runs -/

section Received

variable (world : World) (consumerId : ConsumerId)

/-- The batch that a command returns to the consumer. -/
def offer (store : Store) : StoreOp → Option EventBatch
  | .clientEvents other limit =>
      if other = consumerId then (pollClientEvents world other limit store).1.toOption else none
  | _ => none

/-- The batches that the consumer is returned in a run. -/
def batches (store : Store) : List StoreOp → List EventBatch
  | [] => []
  | op :: ops => (offer world consumerId store op).toList ++ batches (step world store op) ops

def received (store : Store) (ops : List StoreOp) : List ClientEvent :=
  (batches world consumerId store ops).flatMap (·.events)

def checkpoints (store : Store) (ops : List StoreOp) : List ℕ :=
  (batches world consumerId store ops).map (·.checkpoint)

/-- The checkpoint that the consumer acknowledges with a command. -/
def acknowledgement : StoreOp → Option ℕ
  | .acknowledgeEvents other checkpoint => if other = consumerId then some checkpoint else none
  | _ => none

/-- The consumer acknowledges only checkpoints that it has been told. -/
def Honest (told : List ℕ) (store : Store) : List StoreOp → Prop
  | [] => True
  | op :: ops =>
      (∀ checkpoint ∈ acknowledgement consumerId op, checkpoint ∈ told) ∧
        Honest (told ++ (offer world consumerId store op).toList.map (·.checkpoint))
          (step world store op) ops

instance decidableHonest : ∀ (told : List ℕ) (store : Store) (ops : List StoreOp),
    Decidable (Honest world consumerId told store ops)
  | _, _, [] => isTrue trivial
  | told, store, op :: ops =>
      have : Decidable (Honest world consumerId
          (told ++ (offer world consumerId store op).toList.map (·.checkpoint))
          (step world store op) ops) := decidableHonest _ _ ops
      inferInstanceAs (Decidable (_ ∧ _))

end Received

/-- A watching consumer has been returned what it has acknowledged, and all that lies before what
it has been returned.  `start` is the watermark from which on it watches. -/
structure Attended (consumerId : ConsumerId) (sessionId : SessionId) (start : ℕ) (told : List ℕ)
    (events : List ClientEvent) (store : Store) (cursor : ℕ) : Prop where
  watches : store.Watches consumerId sessionId cursor
  bounded : ∀ checkpoint ∈ told, checkpoint ≤ store.clientEventSequence
  acknowledged : cursor ≤ start ∨ cursor ∈ told
  announced : ∀ event ∈ events, ∃ checkpoint ∈ told, event.sequence ≤ checkpoint
  offered : ∀ row ∈ store.clientEvents, Concerns row sessionId → start < row.sequence →
    ∀ checkpoint ∈ told, row.sequence ≤ checkpoint → row.event ∈ events

section Runs

variable {world : World} {store : Store} {consumerId : ConsumerId} {sessionId : SessionId}
  {cursor start : ℕ} {told : List ℕ} {events : List ClientEvent} {op : StoreOp}
  {ops rest : List StoreOp} {batch : EventBatch} {row : ClientEventRow}

theorem offer_polled (hstore : Sequenced store)
    (hoffer : offer world consumerId store op = some batch) :
    ∃ consumer limit, op = .clientEvents consumerId limit ∧
      store.findConsumer consumerId = some consumer ∧
      Polled store consumerId consumer.cursor limit batch := by
  cases op with
  | clientEvents other limit =>
      rw [offer] at hoffer
      split_ifs at hoffer with hother
      · rw [hother] at hoffer ⊢
        cases hpoll : pollClientEvents world consumerId limit store with
        | mk outcome store' =>
            rw [hpoll] at hoffer
            cases outcome with
            | error error => cases hoffer
            | ok found =>
                cases hoffer
                obtain ⟨consumer, hfind, hpolled⟩ := pollClientEvents_polled hstore hpoll
                exact ⟨consumer, limit, rfl, hfind, hpolled⟩
  | _ => cases hoffer

theorem Watches.offer_polled (hwatches : store.Watches consumerId sessionId cursor)
    (hstore : Sequenced store) (hoffer : offer world consumerId store op = some batch) :
    ∃ limit, op = .clientEvents consumerId limit ∧ Polled store consumerId cursor limit batch := by
  obtain ⟨found, limit, hop, hfind, hpolled⟩ := Store.offer_polled hstore hoffer
  obtain ⟨consumer, hsame, rfl⟩ := hwatches.findConsumer hstore.unique
  rw [hfind] at hsame
  cases hsame
  exact ⟨limit, hop, hpolled⟩

/-- A row that has been acknowledged has been returned. -/
theorem Attended.received_of_le
    (hattended : Attended consumerId sessionId start told events store cursor)
    {reached : ℕ} (hreached : reached ≤ start ∨ reached ∈ told) (hrow : row ∈ store.clientEvents)
    (hconcerns : Concerns row sessionId) (hnew : start < row.sequence)
    (hle : row.sequence ≤ reached) : row.event ∈ events := by
  rcases hreached with hearly | htold
  · omega
  · exact hattended.offered row hrow hconcerns hnew reached htold hle

theorem mem_acknowledgement {checkpoint : ℕ}
    (hacknowledges : op.acknowledges consumerId checkpoint) :
    checkpoint ∈ acknowledgement consumerId op := by
  cases op with
  | acknowledgeEvents other value =>
      obtain ⟨rfl, rfl⟩ := hacknowledges
      rw [acknowledgement, if_pos rfl]
      rfl
  | _ => exact hacknowledges.elim

/-- What one command leaves of a watching consumer. -/
theorem Attended.step (hattended : Attended consumerId sessionId start told events store cursor)
    (hkeyed : store.projection.Keyed) (hstore : Sequenced store)
    (hstays : ¬ op.leaving consumerId sessionId)
    (hhonest : ∀ checkpoint ∈ acknowledgement consumerId op, checkpoint ∈ told) :
    ∃ cursor', cursor ≤ cursor' ∧
      Attended consumerId sessionId start
        (told ++ (offer world consumerId store op).toList.map (·.checkpoint))
        (events ++ (offer world consumerId store op).toList.flatMap (·.events))
        (Store.step world store op) cursor' ∧
      ∀ row ∈ store.clientEvents, Concerns row sessionId → start < row.sequence →
        row ∈ (Store.step world store op).clientEvents ∨
          row.sequence ≤ cursor' ∧ row.event ∈ events := by
  have hleaving : ¬ op.footprint.leaving consumerId sessionId := hstays
  obtain ⟨cursor', hguards⟩ :=
    (step_moves world hkeyed op).guards hstore hleaving hattended.watches
  have hreached : cursor' ≤ start ∨ cursor' ∈ told := by
    rcases hguards.acknowledged with rfl | hacknowledges
    · exact hattended.acknowledged
    · exact Or.inr (hhonest cursor' (mem_acknowledgement hacknowledges))
  have hbounded (checkpoint : ℕ) (hmem : checkpoint ∈
      told ++ (offer world consumerId store op).toList.map (·.checkpoint)) :
      checkpoint ≤ store.clientEventSequence := by
    rcases List.mem_append.mp hmem with hold | hnew
    · exact hattended.bounded checkpoint hold
    · obtain ⟨batch, hbatch, rfl⟩ := List.mem_map.mp hnew
      obtain ⟨limit, -, hpolled⟩ :=
        hattended.watches.offer_polled hstore (Option.mem_toList.mp hbatch)
      exact hpolled.bounded
  refine ⟨cursor', hguards.le, ⟨hguards.watches, ?_, ?_, ?_, ?_⟩, ?_⟩
  · exact fun checkpoint hmem => (hbounded checkpoint hmem).trans hguards.grows
  · exact hreached.imp_right (List.mem_append_left _)
  · intro event hevent
    rcases List.mem_append.mp hevent with hold | hnew
    · obtain ⟨checkpoint, htold, hle⟩ := hattended.announced event hold
      exact ⟨checkpoint, List.mem_append_left _ htold, hle⟩
    · obtain ⟨batch, hbatch, hevent⟩ := List.mem_flatMap.mp hnew
      obtain ⟨limit, -, hpolled⟩ :=
        hattended.watches.offer_polled hstore (Option.mem_toList.mp hbatch)
      exact ⟨batch.checkpoint, List.mem_append_right _ (List.mem_map_of_mem hbatch),
        (hpolled.offered event hevent).2⟩
  · intro row hrow hconcerns hnew checkpoint htold hle
    have hpresent : row ∈ store.clientEvents := by
      rcases hguards.added row hrow with hold | hadded
      · exact hold
      · have hwatermark := hbounded checkpoint htold
        omega
    rcases List.mem_append.mp htold with hold | hlate
    · exact List.mem_append_left _
        (hattended.offered row hpresent hconcerns hnew checkpoint hold hle)
    · obtain ⟨batch, hbatch, rfl⟩ := List.mem_map.mp hlate
      obtain ⟨limit, -, hpolled⟩ :=
        hattended.watches.offer_polled hstore (Option.mem_toList.mp hbatch)
      by_cases hread : row.sequence ≤ cursor
      · exact List.mem_append_left _
          (hattended.received_of_le hattended.acknowledged hpresent hconcerns hnew hread)
      · have hsubscribed := hattended.watches.subscribed
        rw [← hconcerns.session] at hsubscribed
        exact List.mem_append_right _ (List.mem_flatMap.mpr ⟨batch, hbatch,
          hpolled.complete row hpresent hsubscribed (not_le.mp hread) hle⟩)
  · intro row hrow hconcerns hnew
    by_cases hread : cursor' < row.sequence
    · exact Or.inl (hguards.kept row hrow hconcerns hread)
    · exact Or.inr ⟨not_lt.mp hread,
        hattended.received_of_le hreached hrow hconcerns hnew (not_lt.mp hread)⟩

theorem batches_append (world : World) (consumerId : ConsumerId) (store : Store)
    (ops rest : List StoreOp) : batches world consumerId store (ops ++ rest) =
      batches world consumerId store ops ++
        batches world consumerId (runFrom world store ops) rest := by
  induction ops generalizing store with
  | nil => rfl
  | cons op ops ih =>
      rw [List.cons_append, batches, batches, ih, List.append_assoc]
      rfl

theorem honest_append : Honest world consumerId told store (ops ++ rest) ↔
    Honest world consumerId told store ops ∧
      Honest world consumerId (told ++ checkpoints world consumerId store ops)
        (runFrom world store ops) rest := by
  induction ops generalizing told store with
  | nil => simp [Honest, checkpoints, batches, runFrom]
  | cons op ops ih =>
      rw [List.cons_append, Honest, Honest, ih, and_assoc, checkpoints, checkpoints, batches,
        List.map_append, List.append_assoc]
      rfl

/-- What a run leaves of a watching consumer, and of an event that is there at its start. -/
theorem Attended.run (hattended : Attended consumerId sessionId start told events store cursor)
    (hkeyed : store.projection.Keyed) (hstore : Sequenced store)
    (hstays : ∀ op ∈ ops, ¬ op.leaving consumerId sessionId)
    (hhonest : Honest world consumerId told store ops) :
    ∃ cursor', cursor ≤ cursor' ∧
      Attended consumerId sessionId start (told ++ checkpoints world consumerId store ops)
        (events ++ received world consumerId store ops) (runFrom world store ops) cursor' ∧
      ∀ row ∈ store.clientEvents, Concerns row sessionId → start < row.sequence →
        row ∈ (runFrom world store ops).clientEvents ∨
          row.sequence ≤ cursor' ∧ row.event ∈ events ++ received world consumerId store ops := by
  induction ops generalizing store told events cursor with
  | nil =>
      refine ⟨cursor, le_rfl, ?_, fun row hrow _ _ => Or.inl hrow⟩
      rw [checkpoints, received, batches, List.map_nil, List.flatMap_nil, List.append_nil,
        List.append_nil]
      exact hattended
  | cons op ops ih =>
      obtain ⟨hacknowledges, hrest⟩ := hhonest
      obtain ⟨middle, hle, hnext, hstep⟩ :=
        hattended.step hkeyed hstore (hstays op List.mem_cons_self) hacknowledges
      obtain ⟨cursor', hle', hlast, hrun⟩ := ih hnext (step_keyed hkeyed op)
        (step_sequenced hkeyed hstore op)
        (fun other hother => hstays other (List.mem_cons_of_mem op hother)) hrest
      rw [List.append_assoc, List.append_assoc] at hlast
      refine ⟨cursor', hle.trans hle', ?_, ?_⟩
      · rw [checkpoints, received, batches, List.map_append, List.flatMap_append]
        exact hlast
      · intro row hrow hconcerns hnew
        rw [received, batches, List.flatMap_append]
        rcases hstep row hrow hconcerns hnew with hpresent | ⟨hread, hreceived⟩
        · rw [← List.append_assoc]
          exact hrun row hpresent hconcerns hnew
        · exact Or.inr ⟨hread.trans hle', List.mem_append_left _ hreceived⟩

theorem Move.watermark_le {footprint : Footprint} {store' : Store}
    (hmove : Move world footprint store store') :
    store.clientEventSequence ≤ store'.clientEventSequence := by
  cases hmove with
  | projected session entry tables delivery _ _ _ _ _ _ _ _ =>
      cases delivery with
      | none => exact le_rfl
      | some delivery => exact Nat.le_succ _
  | delivered _ hmove =>
      cases hmove with
      | signalled => exact Nat.le_succ _
      | ignored => exact Nat.le_succ _
      | _ => exact le_rfl
  | _ => exact le_rfl

theorem runFrom_watermark_le (hkeyed : store.projection.Keyed) (ops : List StoreOp) :
    store.clientEventSequence ≤ (runFrom world store ops).clientEventSequence := by
  have hmoves (store' : Store) (hmoves : Moves world Footprint.unrestricted store store') :
      store.clientEventSequence ≤ store'.clientEventSequence := by
    induction hmoves with
    | refl => exact le_rfl
    | tail _ hmove ih => exact ih.trans hmove.watermark_le
  exact hmoves _ (runFrom_moves world hkeyed ops)

/-- No checkpoint is ahead of the Store. -/
theorem checkpoints_le (hkeyed : store.projection.Keyed) (hstore : Sequenced store)
    {checkpoint : ℕ} (hcheckpoint : checkpoint ∈ checkpoints world consumerId store ops) :
    checkpoint ≤ (runFrom world store ops).clientEventSequence := by
  induction ops generalizing store with
  | nil => cases hcheckpoint
  | cons op ops ih =>
      rw [checkpoints, batches, List.map_append] at hcheckpoint
      rcases List.mem_append.mp hcheckpoint with hoffered | hlater
      · obtain ⟨batch, hbatch, rfl⟩ := List.mem_map.mp hoffered
        obtain ⟨consumer, limit, -, -, hpolled⟩ := offer_polled hstore (Option.mem_toList.mp hbatch)
        exact hpolled.bounded.trans (runFrom_watermark_le hkeyed (op :: ops))
      · exact ih (step_keyed hkeyed op) (step_sequenced hkeyed hstore op) hlater

theorem ensures_upsertConsumer_durable {now : DateTime} :
    ensures (upsertConsumer consumerId .durable now) store fun _ store' =>
      ∃ consumer ∈ store'.clientConsumers, consumer.id = consumerId ∧ consumer.kind = .durable := by
  simp only [upsertConsumer, ensures_bind, ensures_reads, id_eq]
  cases hfind : store.clientConsumers.find? fun consumer => consumer.id = consumerId with
  | none =>
      simp only [ensures_modify]
      exact ⟨_, List.mem_append_right _ List.mem_cons_self, rfl, rfl⟩
  | some consumer =>
      simp only [ensures_bind, ensures_require, ensures_modify]
      intro hkind
      have hid : consumer.id = consumerId := by simpa using List.find?_some hfind
      refine ⟨_, mem_updateWhere.mpr ⟨consumer, List.mem_of_find?_eq_some hfind, rfl⟩, ?_, ?_⟩
      · rw [if_pos (by simpa using hid)]
        exact hid
      · rw [if_pos (by simpa using hid)]
        exact hkind

/-- A subscription that is accepted makes the consumer watch the Session. -/
theorem ensures_subscribeSession :
    ensures (subscribeSession world consumerId sessionId .durable) store fun _ store' =>
      ∃ cursor, store'.Watches consumerId sessionId cursor := by
  simp only [subscribeSession, ensures_bind, ensures_transaction, ensures_utcNow]
  intro _ found _
  refine ensures_mono ensures_upsertConsumer_durable ?_
  rintro _ reached ⟨consumer, hconsumer, hid, hkind⟩
  rw [ensures_modify]
  refine ⟨consumer.cursor, ?_⟩
  split_ifs with hsubscribed
  · obtain ⟨⟨other, session⟩, hmem, hsame⟩ := List.any_eq_true.mp hsubscribed
    rw [decide_eq_true_iff] at hsame
    obtain ⟨rfl, rfl⟩ := hsame
    exact ⟨⟨consumer, hconsumer, hid, hkind, rfl⟩, hmem⟩
  · exact ⟨⟨consumer, hconsumer, hid, hkind, rfl⟩, List.mem_append_right _ List.mem_cons_self⟩

end Runs

namespace SubscribedConsumer

/-- A Session. -/
def before : List StoreOp :=
  let context : CommandContext := { commandId := "1", actor := .system, correlationId := none }
  [.initializeHub context "hub" "a" "b" "c", .createAgent context "mews" "soul" "native" ⟨"1"⟩,
    .createSession ⟨"7"⟩ ⟨"1"⟩ "/"]

/-- A Turn that ends. -/
def first : List StoreOp :=
  let source : MessageSource := { kind := .client, id := "cli", channelOrigin := none }
  [.acceptTurnIdempotent ⟨"10"⟩ "key" (.text "hi") (.text "hi") .null source,
    .finishTurnWithStopReason ⟨"15"⟩ .completed none none]

/-- The consumer reads its end. -/
def second : List StoreOp := [.clientEvents ⟨"c"⟩ 8, .acknowledgeEvents ⟨"c"⟩ 1]

def row : ClientEventRow where
  sequence := 1
  body :=
    { id := ⟨"19"⟩, sessionId := ⟨"10"⟩, channelOrigin := none, kind := .turnCompleted ⟨"15"⟩
      createdAt := 20 }
  origin := .durable (some ⟨"19"⟩) ⟨"19"⟩ 6

end SubscribedConsumer

end Store

end Mews
