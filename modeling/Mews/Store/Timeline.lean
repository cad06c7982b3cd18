import Mews.Core.Ancestry
import Mews.Store.Runs

/-!
# The timeline of a Session

Entries are numbered without gaps, hang below earlier context-bearing entries of
their Session, and the leaf is one of these.  The active branch is then the
lineage of the leaf, and only a context-bearing entry or an explicit change
moves the leaf.
-/

namespace Mews

open Protocol Table Ancestry

/-- The entries a model is shown; all others are side entries. -/
def Protocol.SessionEntryPayload.bearsContext : SessionEntryPayload → Bool
  | .userMessage .. | .assistantResponse .. | .toolResult .. | .contextCompaction .. => true
  | _ => false

namespace Projection

variable {world : World} {closing : TurnId → Prop} {tables tables' : Projection}
  {sessionId : SessionId}

/-- What holds of the entries of every Session and of its leaf. -/
structure Timelined (tables : Projection) : Prop where
  sequences : ∀ sessionId, (tables.timeline sessionId).map (·.entry.sequence) =
    List.range' 1 (tables.timeline sessionId).length
  parents : ∀ sessionId, ∀ row ∈ tables.timeline sessionId, ∀ id ∈ row.entry.parentId,
    ∃ above ∈ tables.timeline sessionId, above.entry.id = id ∧ above.contextual = true ∧
      above.entry.sequence < row.entry.sequence
  leaves : ∀ session ∈ tables.sessions, ∀ id ∈ session.leafEntryId,
    ∃ row ∈ tables.timeline session.id, row.entry.id = id ∧ row.contextual = true
  kinds : ∀ row ∈ tables.sessionEntries, row.contextual = row.entry.payload.bearsContext

theorem timelined_empty : Projection.empty.Timelined := by
  constructor <;> simp [Projection.empty, timeline]

theorem Timelined.congr (htimelined : tables.Timelined)
    (hentries : tables'.sessionEntries = tables.sessionEntries)
    (hsessions : tables'.sessions = tables.sessions) : tables'.Timelined := by
  have htimeline : ∀ sessionId, tables'.timeline sessionId = tables.timeline sessionId := by
    intro sessionId
    rw [timeline, timeline, hentries]
  constructor
  · intro sessionId
    rw [htimeline]
    exact htimelined.sequences sessionId
  · intro sessionId
    rw [htimeline]
    exact htimelined.parents sessionId
  · rw [hsessions]
    intro session hsession
    rw [htimeline]
    exact htimelined.leaves session hsession
  · rw [hentries]
    exact htimelined.kinds

theorem foldr_max_range' (start count : Nat) :
    (List.range' (start + 1) count).foldr max 0 = if count = 0 then 0 else start + count := by
  induction count generalizing start with
  | zero => rfl
  | succ count ih =>
      rw [List.range'_succ, List.foldr_cons, ih (start + 1), if_neg (Nat.succ_ne_zero count)]
      split <;> omega

/-- The next entry continues the numbering. -/
theorem Timelined.nextSequence (htimelined : tables.Timelined) (sessionId : SessionId) :
    tables.nextSequence sessionId = (tables.timeline sessionId).length + 1 := by
  rw [Projection.nextSequence, htimelined.sequences, foldr_max_range' 0]
  split <;> omega

theorem Timelined.sequence_le (htimelined : tables.Timelined) {row : EntryRow}
    (hrow : row ∈ tables.timeline sessionId) :
    1 ≤ row.entry.sequence ∧ row.entry.sequence ≤ (tables.timeline sessionId).length := by
  have hmem : row.entry.sequence ∈ List.range' 1 (tables.timeline sessionId).length := by
    rw [← htimelined.sequences]
    exact List.mem_map_of_mem hrow
  rw [List.mem_range'_1] at hmem
  omega

/-- The current leaf of a Session is a context-bearing entry of it. -/
theorem Timelined.leaf_of_ok (htimelined : tables.Timelined) {leaf : Option MessageId}
    (hleaf : tables.currentSessionLeaf sessionId = .ok leaf) :
    ∀ id ∈ leaf, ∃ row ∈ tables.timeline sessionId, row.entry.id = id ∧ row.contextual = true := by
  rw [currentSessionLeaf, findSession] at hleaf
  split at hleaf
  · rename_i session hfind
    cases hleaf
    have hid : session.id = sessionId := by simpa using List.find?_some hfind
    rw [← hid]
    exact htimelined.leaves session (List.mem_of_find?_eq_some hfind)
  · cases hleaf

theorem Placed.timelined {entryId : MessageId} {payload : SessionEntryPayload} {contextual : Bool}
    {key : Option String} {createdAt : DateTime} {entry : SessionEntry}
    (hplaced : Placed tables sessionId entryId payload contextual key createdAt tables' entry)
    (hkind : contextual = payload.bearsContext) (htimelined : tables.Timelined) :
    tables'.Timelined := by
  have hsequence : entry.sequence = (tables.timeline sessionId).length + 1 := by
    rw [hplaced.entry_eq]
    exact htimelined.nextSequence sessionId
  have hmem : ∀ other, tables.timeline other ⊆ tables'.timeline other := by
    intro other
    rw [hplaced.timeline_eq]
    exact List.subset_append_left _ _
  constructor
  · intro other
    rw [hplaced.timeline_eq]
    by_cases hother : other = sessionId
    · subst hother
      simp only [if_true, List.map_append, List.map_cons, List.map_nil, List.length_append,
        List.length_singleton, htimelined.sequences, hsequence]
      rw [List.range'_concat, Nat.one_mul, Nat.add_comm]
    · simp only [hother, if_false, List.append_nil]
      exact htimelined.sequences other
  · intro other row hrow id hid
    rw [hplaced.timeline_eq] at hrow
    rcases List.mem_append.mp hrow with hrow | hrow
    · obtain ⟨above, habove, habove'⟩ := htimelined.parents other row hrow id hid
      exact ⟨above, hmem other habove, habove'⟩
    · by_cases hother : other = sessionId
      · subst hother
        simp only [if_true, List.mem_singleton] at hrow
        subst hrow
        obtain ⟨above, habove, hid, hcontextual⟩ := htimelined.leaf_of_ok hplaced.leaf id hid
        refine ⟨above, hmem _ habove, hid, hcontextual, ?_⟩
        have hle := (htimelined.sequence_le habove).2
        simp only [hsequence]
        omega
      · simp [hother] at hrow
  · intro session hsession id hid
    rw [hplaced.tables_eq] at hsession
    by_cases hcontextual : contextual = true
    · simp only [hcontextual, if_true, setLeaf] at hsession
      obtain ⟨old, hold, rfl⟩ := mem_updateWhere.mp hsession
      by_cases hmatched : old.id = sessionId
      · simp only [hmatched, decide_true, if_true, Option.mem_def, Option.some.injEq] at hid ⊢
        refine ⟨⟨entry, contextual, key⟩, ?_, hplaced.id_eq.trans hid, hcontextual⟩
        rw [hplaced.timeline_eq]
        simp
      · simp only [hmatched, decide_false, Bool.false_eq_true, if_false] at hid ⊢
        obtain ⟨row, hrow, hrow'⟩ := htimelined.leaves old hold id hid
        exact ⟨row, hmem _ hrow, hrow'⟩
    · simp only [hcontextual, Bool.false_eq_true, if_false] at hsession
      obtain ⟨row, hrow, hrow'⟩ := htimelined.leaves session hsession id hid
      exact ⟨row, hmem _ hrow, hrow'⟩
  · intro row hrow
    rw [hplaced.tables_eq] at hrow
    rcases List.mem_append.mp hrow with hrow | hrow
    · exact htimelined.kinds row hrow
    · obtain rfl := List.mem_singleton.mp hrow
      rw [hplaced.payload_eq]
      exact hkind

theorem bearsContext_of_timelineEntry {payload : JournalEvent} {entryId : MessageId}
    {entry : SessionEntryPayload} {contextual : Bool}
    (hentry : payload.timelineEntry = some (entryId, entry, contextual)) :
    contextual = entry.bearsContext := by
  cases payload <;> simp only [JournalEvent.timelineEntry, Option.some.injEq, Prod.mk.injEq,
    reduceCtorEq] at hentry <;> obtain ⟨-, rfl, rfl⟩ := hentry <;> rfl

theorem bearsContext_of_turnEnd {payload : JournalEvent} {turnId : TurnId} {status : TurnStatus}
    {error : Option String} {entry : SessionEntryPayload}
    (hend : payload.turnEnd = some (turnId, status, error, entry)) :
    entry.bearsContext = false := by
  cases payload <;> simp only [JournalEvent.turnEnd, Option.some.injEq, Prod.mk.injEq,
    reduceCtorEq] at hend <;> obtain ⟨-, -, -, rfl⟩ := hend <;> rfl

theorem Timelined.change (htimelined : tables.Timelined)
    (hchange : Store.LawfulChange world closing tables tables') : tables'.Timelined := by
  obtain ⟨sessionId, event, delivery, -, hlawful, hchange⟩ := hchange
  cases hchange with
  | sessionCreated session =>
      refine ⟨htimelined.sequences, htimelined.parents, fun other hother => ?_, htimelined.kinds⟩
      rcases List.mem_append.mp hother with hother | hother
      · exact htimelined.leaves other hother
      · obtain rfl := List.mem_singleton.mp hother
        simp
  | modelChanged model =>
      refine ⟨htimelined.sequences, htimelined.parents, fun other hother => ?_, htimelined.kinds⟩
      obtain ⟨old, hold, rfl⟩ := mem_updateWhere.mp hother
      split <;> exact htimelined.leaves old hold
  | leafChanged leaf hpayload =>
      rw [hpayload] at hlawful
      refine ⟨htimelined.sequences, htimelined.parents, fun other hother => ?_, htimelined.kinds⟩
      obtain ⟨old, hold, rfl⟩ := mem_updateWhere.mp hother
      by_cases hmatched : old.id = sessionId
      · simp only [hmatched, decide_true, if_true]
        exact hlawful
      · simp only [hmatched, decide_false, Bool.false_eq_true, if_false]
        exact htimelined.leaves old hold
  | entryAppended _ _ _ _ _ _ hentry _ hplaced =>
      exact hplaced.timelined (bearsContext_of_timelineEntry hentry) htimelined
  | turnAccepted _ _ _ _ _ _ _ _ _ hplaced =>
      exact (hplaced.timelined rfl htimelined).congr rfl rfl
  | turnStarted _ _ _ _ _ _ hplaced => exact hplaced.timelined rfl (htimelined.congr rfl rfl)
  | turnEnded _ _ _ _ _ _ _ hend _ hplaced =>
      exact hplaced.timelined (bearsContext_of_turnEnd hend).symm (htimelined.congr rfl rfl)
  | _ => exact htimelined.congr rfl rfl

/-! ## The active branch -/

/-- The entry the parent identifier names in the same Session. -/
def parentOf (tables : Projection) (entry : SessionEntry) : Option SessionEntry :=
  (entry.parentId.bind fun id =>
    (tables.timeline entry.sessionId).find? fun row => row.entry.id = id).map (·.entry)

theorem chainFrom_eq_climb (fuel : Nat) (entry : SessionEntry) :
    tables.chainFrom fuel entry = climb tables.parentOf fuel entry := by
  induction fuel generalizing entry with
  | zero => rfl
  | succ fuel ih =>
      simp only [chainFrom, climb, parentOf]
      cases entry.parentId.bind fun id =>
          (tables.timeline entry.sessionId).find? fun row => row.entry.id = id with
      | none => rfl
      | some row => simp only [Option.map_some, ih]

/-- The parent of an entry is the context-bearing row it names. -/
theorem Timelined.parentOf_eq_some (htimelined : tables.Timelined) (hkeyed : tables.Keyed)
    {row : EntryRow} (hrow : row ∈ tables.timeline sessionId) {above : SessionEntry}
    (hparent : tables.parentOf row.entry = some above) :
    ∃ found ∈ tables.timeline sessionId, found.entry = above ∧
      row.entry.parentId = some above.id ∧ found.contextual = true ∧
      above.sequence < row.entry.sequence := by
  have hsession : row.entry.sessionId = sessionId := by simpa using (List.mem_filter.mp hrow).2
  obtain ⟨found, hfound, rfl⟩ := Option.map_eq_some_iff.mp hparent
  obtain ⟨id, hid, hfind⟩ := Option.bind_eq_some_iff.mp hfound
  rw [hsession] at hfind
  obtain ⟨above, habove, habove', hcontextual, hlt⟩ :=
    htimelined.parents sessionId row hrow id hid
  have hunique : Unique (fun row => row.entry.id) (tables.timeline sessionId) :=
    hkeyed.entries.filter _
  have hfind' := hunique.find?_eq_some habove
  rw [habove', hfind, Option.some.injEq] at hfind'
  subst hfind'
  exact ⟨found, habove, rfl, by rw [hid, habove'], hcontextual, hlt⟩

/-- The entries of a Session hang below earlier ones. -/
theorem Timelined.ranked (htimelined : tables.Timelined) (hkeyed : tables.Keyed)
    (sessionId : SessionId) :
    Ranked tables.parentOf (·.sequence) ((tables.timeline sessionId).map (·.entry)) := by
  intro entry hentry above hparent
  obtain ⟨row, hrow, rfl⟩ := List.mem_map.mp hentry
  obtain ⟨found, hfound, rfl, -, -, hlt⟩ := htimelined.parentOf_eq_some hkeyed hrow hparent
  exact ⟨List.mem_map_of_mem hfound, hlt⟩

/-- The leaf of a Session, when it has one. -/
def leafOf (tables : Projection) (sessionId : SessionId) : Option MessageId :=
  (tables.findSession sessionId).bind fun session => session.leafEntryId

/-- The row of the leaf, its lineage, and the active branch that is read off it. -/
theorem Timelined.activeBranch_eq (htimelined : tables.Timelined) (hkeyed : tables.Keyed)
    {leaf : MessageId} (hleaf : tables.leafOf sessionId = some leaf) :
    ∃ row ∈ tables.timeline sessionId, row.entry.id = leaf ∧ row.contextual = true ∧
      ∃ chain, Lineage tables.parentOf row.entry chain ∧
        tables.activeBranch sessionId = chain.reverse := by
  obtain ⟨session, hsession, hleafOf⟩ := Option.bind_eq_some_iff.mp hleaf
  have hid : session.id = sessionId := by simpa using List.find?_some hsession
  obtain ⟨row, hrow, hrowId, hcontextual⟩ :=
    htimelined.leaves session (List.mem_of_find?_eq_some hsession) leaf hleafOf
  rw [hid] at hrow
  have hranked := htimelined.ranked hkeyed sessionId
  have hmem : row.entry ∈ (tables.timeline sessionId).map (·.entry) := List.mem_map_of_mem hrow
  obtain ⟨chain, hchain⟩ := hranked.exists_lineage hmem
  refine ⟨row, hrow, hrowId, hcontextual, chain, hchain, ?_⟩
  have hfind : (tables.sessionEntries.find? fun row => row.entry.id = leaf) = some row := by
    rw [← hrowId]
    exact hkeyed.entries.find?_eq_some (List.mem_of_mem_filter hrow)
  have hlength : chain.length ≤ tables.sessionEntries.length := by
    have hle := hranked.length_le hmem hchain
    rw [List.length_map] at hle
    exact Nat.le_trans hle (List.length_filter_le _ _)
  have hbranch : tables.activeBranch sessionId =
      (tables.chainFrom tables.sessionEntries.length row.entry).insertionSort
        fun left right => left.sequence ≤ right.sequence := by
    simp only [activeBranch, hsession, Option.bind_some, hleafOf, hfind]
  rw [hbranch, chainFrom_eq_climb, hchain.climb_eq hlength]
  exact hranked.insertionSort_eq hmem hchain

/-- The entry a parent identifier names is found, bears context and comes
earlier. -/
theorem Timelined.exists_parent (htimelined : tables.Timelined) (hkeyed : tables.Keyed)
    {row : EntryRow} (hrow : row ∈ tables.timeline sessionId) {id : MessageId}
    (hid : row.entry.parentId = some id) :
    ∃ above ∈ tables.timeline sessionId, above.entry.id = id ∧
      above.entry.payload.bearsContext = true ∧
      above.entry.sequence < row.entry.sequence ∧
      tables.parentOf row.entry = some above.entry := by
  have hsession : row.entry.sessionId = sessionId := by simpa using (List.mem_filter.mp hrow).2
  obtain ⟨above, habove, habove', hcontextual, hlt⟩ := htimelined.parents sessionId row hrow id hid
  have hkind := htimelined.kinds above (List.mem_of_mem_filter habove)
  have hunique : Unique (fun row => row.entry.id) (tables.timeline sessionId) :=
    hkeyed.entries.filter _
  have hfind := hunique.find?_eq_some habove
  rw [habove'] at hfind
  refine ⟨above, habove, habove', hkind ▸ hcontextual, hlt, ?_⟩
  rw [parentOf, hid, hsession, Option.bind_some, hfind, Option.map_some]

theorem activeBranch_eq_nil (hleaf : tables.leafOf sessionId = none) :
    tables.activeBranch sessionId = [] := by
  rw [leafOf] at hleaf
  simp only [activeBranch, hleaf, Option.bind_none]

/-! ## What moves the leaf -/

/-- The leaf stays, unless a new context-bearing row became the leaf or the leaf
was changed as such. -/
structure LeafFollows (changed : Option MessageId → Prop) (sessionId : SessionId)
    (tables tables' : Projection) : Prop where
  rows : tables.timeline sessionId ⊆ tables'.timeline sessionId
  leaf : tables'.leafOf sessionId = tables.leafOf sessionId ∨ changed (tables'.leafOf sessionId) ∨
    ∃ row ∈ tables'.timeline sessionId, row ∉ tables.timeline sessionId ∧
      row.contextual = true ∧ tables'.leafOf sessionId = some row.entry.id

variable {changed : Option MessageId → Prop}

theorem LeafFollows.of_same (hentries : tables'.sessionEntries = tables.sessionEntries)
    (hleaf : tables'.leafOf sessionId = tables.leafOf sessionId) :
    LeafFollows changed sessionId tables tables' := by
  refine ⟨?_, .inl hleaf⟩
  rw [timeline, timeline, hentries]
  exact fun _ h => h

theorem LeafFollows.trans {first second third : Projection}
    (hfirst : LeafFollows changed sessionId first second)
    (hsecond : LeafFollows changed sessionId second third) :
    LeafFollows changed sessionId first third := by
  refine ⟨fun _ hrow => hsecond.rows (hfirst.rows hrow), ?_⟩
  rcases hsecond.leaf with hleaf | hchanged | ⟨row, hrow, hnew, hcontextual, hleaf⟩
  · rw [hleaf]
    rcases hfirst.leaf with hleaf | hchanged | ⟨row, hrow, hnew⟩
    · exact .inl hleaf
    · exact .inr (.inl hchanged)
    · exact .inr (.inr ⟨row, hsecond.rows hrow, hnew⟩)
  · exact .inr (.inl hchanged)
  · exact .inr (.inr ⟨row, hrow, fun h => hnew (hfirst.rows h), hcontextual, hleaf⟩)

/-- A change that keeps the identifiers of the Sessions is seen in their leaves. -/
theorem leafOf_updateWhere {matched : Session → Bool} {change : Session → Session}
    (hid : ∀ session, (change session).id = session.id)
    (hsessions : tables'.sessions = updateWhere matched change tables.sessions) :
    tables'.leafOf sessionId = (tables.findSession sessionId).bind fun session =>
      (if matched session then change session else session).leafEntryId := by
  rw [leafOf, findSession, hsessions, find?_updateWhere fun session => by rw [hid],
    Option.bind_map]
  rfl

theorem leafOf_setLeaf {moved : SessionId} {leaf : Option MessageId}
    (hsessions : tables'.sessions = tables.setLeaf moved leaf) :
    tables'.leafOf sessionId =
      if sessionId = moved ∧ (tables.findSession sessionId).isSome then leaf
      else tables.leafOf sessionId := by
  rw [setLeaf] at hsessions
  rw [leafOf_updateWhere (fun _ => by rfl) hsessions, leafOf]
  cases hfind : tables.findSession sessionId with
  | none => simp
  | some session =>
      have hid : session.id = sessionId := by simpa using List.find?_some hfind
      by_cases hmoved : sessionId = moved
      · simp [hid, hmoved]
      · simp [hid, hmoved]

theorem LeafFollows.of_setLeaf {moved : SessionId} {leaf : Option MessageId}
    (hentries : tables'.sessionEntries = tables.sessionEntries)
    (hsessions : tables'.sessions = tables.setLeaf moved leaf) (hleaf : changed leaf) :
    LeafFollows changed sessionId tables tables' := by
  have hrows : tables'.timeline sessionId = tables.timeline sessionId := by
    rw [timeline, timeline, hentries]
  refine ⟨fun row hrow => by rwa [hrows], ?_⟩
  rw [leafOf_setLeaf hsessions]
  split
  · exact .inr (.inl hleaf)
  · exact .inl rfl

/-- Only the Session of the new row sees its leaf move, and only when the row
is context-bearing. -/
theorem Placed.leafFollows {placedIn : SessionId} {entryId : MessageId}
    {payload : SessionEntryPayload} {contextual : Bool} {key : Option String}
    {createdAt : DateTime} {entry : SessionEntry}
    (hplaced : Placed tables placedIn entryId payload contextual key createdAt tables' entry) :
    LeafFollows changed sessionId tables tables' := by
  have hrows := hplaced.timeline_eq sessionId
  refine ⟨fun row hrow => by rw [hrows]; exact List.mem_append_left _ hrow, ?_⟩
  by_cases hcontextual : contextual = true
  · have hsessions : tables'.sessions = tables.setLeaf placedIn (some entryId) := by
      rw [hplaced.tables_eq, if_pos hcontextual]
    rw [leafOf_setLeaf hsessions]
    split
    · rename_i hmoved
      refine .inr (.inr ⟨⟨entry, contextual, key⟩, ?_, ?_, hcontextual, ?_⟩)
      · rw [hrows, if_pos hmoved.1]
        exact List.mem_append_right _ List.mem_cons_self
      · intro hold
        exact hplaced.admissible.1 _ (List.mem_of_mem_filter hold) rfl
      · exact congrArg some hplaced.id_eq.symm
    · exact .inl rfl
  · refine .inl ?_
    rw [hplaced.tables_eq, leafOf, findSession, if_neg hcontextual]
    rfl

theorem leafFollows_of_change {event : JournalEntry} {movedIn : SessionId}
    {delivery : Option Delivery}
    (hchange : SessionChange world tables movedIn event tables' delivery)
    (hleaf : ∀ leaf, event.payload = .sessionLeafChanged leaf → changed leaf) :
    LeafFollows changed sessionId tables tables' := by
  cases hchange with
  | sessionCreated session _ hid =>
      refine .of_same rfl ?_
      simp only [leafOf, findSession, List.find?_append]
      cases tables.sessions.find? fun session => session.id = sessionId with
      | some found => rfl
      | none => by_cases hnew : session.id = sessionId <;> simp [hnew]
  | modelChanged model =>
      refine .of_same rfl ?_
      rw [leafOf_updateWhere (fun _ => by rfl) rfl, leafOf]
      congr 1
      funext session
      split <;> rfl
  | leafChanged leaf hpayload => exact .of_setLeaf rfl rfl (hleaf leaf hpayload)
  | entryAppended _ _ _ _ _ _ _ _ hplaced => exact hplaced.leafFollows
  | turnAccepted _ _ _ _ _ _ _ _ _ hplaced => exact hplaced.leafFollows.trans (.of_same rfl rfl)
  | turnStarted _ _ _ _ _ _ hplaced =>
      refine .trans ?_ hplaced.leafFollows
      exact .of_same rfl rfl
  | turnEnded _ _ _ _ _ _ _ _ _ hplaced =>
      refine .trans ?_ hplaced.leafFollows
      exact .of_same rfl rfl
  | _ => exact .of_same rfl rfl

end Projection

namespace Store

open Projection

variable {world : World} {footprint : Footprint} {store store' : Store} {sessionId : SessionId}

theorem Moves.timelined (hmoves : Moves world footprint store store')
    (htimelined : store.projection.Timelined) : store'.projection.Timelined :=
  hmoves.session_invariant Timelined
    (fun _ _ hsame htimelined => htimelined.congr hsame.entries_eq hsame.sessions_eq)
    (fun _ _ hchange htimelined => htimelined.change hchange) htimelined

theorem run_timelined (world : World) (ops : List StoreOp) : (run world ops).projection.Timelined :=
  (runFrom_moves world keyed_empty ops).timelined timelined_empty

theorem Move.leafFollows (hmove : Move world footprint store store') :
    LeafFollows (fun leaf => footprint.produces (.sessionLeafChanged leaf)) sessionId
      store.projection store'.projection := by
  rcases hmove.session_tables with hsame | ⟨movedIn, entry, delivery, -, -, -, hproduces, hchange⟩
  · refine .of_same hsame.entries_eq ?_
    rw [leafOf, findSession, hsame.sessions_eq]
    rfl
  · refine leafFollows_of_change hchange fun leaf hpayload => ?_
    rwa [hpayload] at hproduces

theorem Moves.leafFollows (hmoves : Moves world footprint store store') :
    LeafFollows (fun leaf => footprint.produces (.sessionLeafChanged leaf)) sessionId
      store.projection store'.projection := by
  induction hmoves with
  | refl => exact .of_same rfl rfl
  | tail _ hmove ih => exact ih.trans hmove.leafFollows

/-- Only one command changes the leaf of a Session as such. -/
theorem setSessionLeafChecked_of_produces {op : StoreOp} {leaf : Option MessageId}
    (hproduces : op.produces (.sessionLeafChanged leaf)) :
    ∃ movedIn expected, op = .setSessionLeafChecked movedIn expected leaf := by
  cases op with
  | setSessionLeafChecked movedIn expected newLeaf =>
      cases hproduces
      exact ⟨movedIn, expected, rfl⟩
  | finishEffect | finishTurnWithStopReason | recoverInterruptedWork =>
      cases StoreOp.endsWork_of_produces rfl hproduces
  | _ => simp [StoreOp.produces, observationPayload] at hproduces

/-- The timeline of a Session in every reachable state, and what one more
command does to its leaf. -/
theorem session_timeline (world : World) (ops : List StoreOp) (sessionId : SessionId) :
    let tables := (run world ops).projection
    let timeline := tables.timeline sessionId
    timeline.map (·.entry.sequence) = List.range' 1 timeline.length ∧
    (∀ row ∈ timeline, ∀ id, row.entry.parentId = some id →
      ∃ above ∈ timeline, above.entry.id = id ∧ above.entry.payload.bearsContext = true ∧
        above.entry.sequence < row.entry.sequence ∧
        tables.parentOf row.entry = some above.entry) ∧
    (tables.leafOf sessionId = none → tables.activeBranch sessionId = []) ∧
    (∀ leaf, tables.leafOf sessionId = some leaf →
      ∃ row ∈ timeline, row.entry.id = leaf ∧ row.entry.payload.bearsContext = true ∧
        ∃ chain, Lineage tables.parentOf row.entry chain ∧
          tables.activeBranch sessionId = chain.reverse) ∧
    tables.activeEntries sessionId = applyLatestCompaction (tables.activeBranch sessionId) ∧
    ∀ op, let after := (run world (ops ++ [op])).projection
      after.leafOf sessionId = tables.leafOf sessionId ∨
      (∃ movedIn expected,
        op = .setSessionLeafChecked movedIn expected (after.leafOf sessionId)) ∨
      ∃ row ∈ after.timeline sessionId, row ∉ timeline ∧
        row.entry.payload.bearsContext = true ∧ after.leafOf sessionId = some row.entry.id := by
  intro tables timeline
  have htimelined : tables.Timelined := run_timelined world ops
  have hkeyed : tables.Keyed := run_keyed world ops
  refine ⟨htimelined.sequences sessionId, fun row hrow id => htimelined.exists_parent hkeyed hrow,
    activeBranch_eq_nil, ?_, rfl, ?_⟩
  · intro leaf hleaf
    obtain ⟨row, hrow, hid, hcontextual, hchain⟩ := htimelined.activeBranch_eq hkeyed hleaf
    have hkind := htimelined.kinds row (List.mem_of_mem_filter hrow)
    exact ⟨row, hrow, hid, hkind ▸ hcontextual, hchain⟩
  · intro op after
    have hafter : run world (ops ++ [op]) = step world (run world ops) op := run_append world ops [op]
    have hfollows : LeafFollows (fun leaf => op.produces (.sessionLeafChanged leaf)) sessionId
        tables after := by
      rw [show after = (step world (run world ops) op).projection from
        congrArg Store.projection hafter]
      exact (step_moves world hkeyed op).leafFollows
    rcases hfollows.leaf with hsame | hproduces | ⟨row, hrow, hnew, hcontextual, hleaf⟩
    · exact .inl hsame
    · exact .inr (.inl (setSessionLeafChecked_of_produces hproduces))
    · have hkind := (run_timelined world (ops ++ [op])).kinds row (List.mem_of_mem_filter hrow)
      exact .inr (.inr ⟨row, hrow, hnew, hkind ▸ hcontextual, hleaf⟩)

end Store

end Mews
