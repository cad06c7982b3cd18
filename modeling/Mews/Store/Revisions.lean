import Mews.Store.AggregateChanges
import Mews.Store.Lifecycle
import Mews.Store.Retries

/-!
# Agent revisions

The revisions of an Agent are numbered from one to its current revision and are
never rewritten.  An update names the revision it was made from, so of two
updates from one revision only the first is recorded, and a Turn names a
revision of the Agent of its Session that was there when it was accepted.
-/

namespace Mews

open Protocol Table Tx

namespace Projection

variable {world : World} {closing : TurnId → Prop} {tables tables' : Projection}
  {event : JournalEntry} {revision : AgentRevision}

/-- The recorded revisions of an Agent, oldest first. -/
def revisionsOf (tables : Projection) (agentId : AgentId) : List AgentRevision :=
  tables.agentRevisions.filter fun revision => revision.agentId = agentId

/-- What holds of Agents and their revisions. -/
structure Versioned (tables : Projection) : Prop where
  agents : Unique (fun agent => agent.id) tables.agents
  numbered : ∀ agent ∈ tables.agents,
    (tables.revisionsOf agent.id).map (·.revision) = List.range' 1 agent.currentRevision
  started : ∀ agent ∈ tables.agents, 1 ≤ agent.currentRevision
  owned : ∀ revision ∈ tables.agentRevisions, ∃ agent ∈ tables.agents, agent.id = revision.agentId

theorem versioned_empty : Projection.empty.Versioned := by
  constructor <;> simp [Projection.empty]

theorem Versioned.congr (hversioned : tables.Versioned) (hagents : tables'.agents = tables.agents)
    (hrevisions : tables'.agentRevisions = tables.agentRevisions) : tables'.Versioned := by
  have hof : ∀ agentId, tables'.revisionsOf agentId = tables.revisionsOf agentId := by
    intro agentId
    rw [revisionsOf, revisionsOf, hrevisions]
  constructor
  · rw [hagents]
    exact hversioned.agents
  · rw [hagents]
    intro agent hagent
    rw [hof]
    exact hversioned.numbered agent hagent
  · rw [hagents]
    exact hversioned.started
  · rw [hagents, hrevisions]
    exact hversioned.owned

theorem revisionsOf_append (hrevisions : tables'.agentRevisions = tables.agentRevisions ++ [revision])
    (agentId : AgentId) :
    tables'.revisionsOf agentId = tables.revisionsOf agentId ++
      if revision.agentId = agentId then [revision] else [] := by
  rw [revisionsOf, hrevisions, List.filter_append, revisionsOf]
  by_cases hagent : revision.agentId = agentId <;> simp [hagent]

/-- Agents change without touching their identifiers and current revisions. -/
theorem Versioned.updateAgents (hversioned : tables.Versioned) {matched : Agent → Bool}
    {change : Agent → Agent}
    (hagents : tables'.agents = updateWhere matched change tables.agents)
    (hrevisions : tables'.agentRevisions = tables.agentRevisions)
    (hid : ∀ agent, (change agent).id = agent.id)
    (hcurrent : ∀ agent, (change agent).currentRevision = agent.currentRevision) :
    tables'.Versioned := by
  have hkept : ∀ agent : Agent, (if matched agent then change agent else agent).id = agent.id ∧
      (if matched agent then change agent else agent).currentRevision = agent.currentRevision := by
    intro agent
    split
    · exact ⟨hid agent, hcurrent agent⟩
    · exact ⟨rfl, rfl⟩
  constructor
  · rw [hagents]
    exact (unique_updateWhere hid).mpr hversioned.agents
  · intro agent hagent
    rw [hagents] at hagent
    obtain ⟨old, hold, rfl⟩ := mem_updateWhere.mp hagent
    rw [(hkept old).1, (hkept old).2, revisionsOf, hrevisions]
    exact hversioned.numbered old hold
  · intro agent hagent
    rw [hagents] at hagent
    obtain ⟨old, hold, rfl⟩ := mem_updateWhere.mp hagent
    rw [(hkept old).2]
    exact hversioned.started old hold
  · intro revision hrevision
    rw [hrevisions] at hrevision
    obtain ⟨agent, hagent, hid'⟩ := hversioned.owned revision hrevision
    rw [hagents]
    exact ⟨_, mem_updateWhere.mpr ⟨agent, hagent, rfl⟩, (hkept agent).1.trans hid'⟩

theorem Versioned.create (hversioned : tables.Versioned) {agent : Agent}
    {initialRevision : AgentRevision} (hnew : ∀ other ∈ tables.agents, other.id ≠ agent.id)
    (hagent : initialRevision.agentId = agent.id) (hfirst : initialRevision.revision = 1)
    (hcurrent : agent.currentRevision = 1) :
    Versioned { tables with
      agents := tables.agents ++ [agent]
      agentRevisions := tables.agentRevisions ++ [initialRevision] } := by
  constructor
  · exact unique_append_singleton.mpr ⟨hversioned.agents, hnew⟩
  · intro other hother
    rw [revisionsOf_append rfl]
    rcases List.mem_append.mp hother with hother | hother
    · rw [if_neg (by rw [hagent]; exact (hnew other hother).symm), List.append_nil]
      exact hversioned.numbered other hother
    · obtain rfl := List.mem_singleton.mp hother
      have hnone : tables.revisionsOf other.id = [] := by
        rw [revisionsOf, List.filter_eq_nil_iff]
        intro revision hrevision
        obtain ⟨owner, howner, hid⟩ := hversioned.owned revision hrevision
        simpa [← hid] using hnew owner howner
      rw [hnone, if_pos hagent, hcurrent]
      simp [hfirst]
  · intro other hother
    rcases List.mem_append.mp hother with hother | hother
    · exact hversioned.started other hother
    · obtain rfl := List.mem_singleton.mp hother
      rw [hcurrent]
  · intro revision hrevision
    rcases List.mem_append.mp hrevision with hrevision | hrevision
    · obtain ⟨owner, howner, hid⟩ := hversioned.owned revision hrevision
      exact ⟨owner, List.mem_append_left _ howner, hid⟩
    · obtain rfl := List.mem_singleton.mp hrevision
      exact ⟨agent, List.mem_append_right _ List.mem_cons_self, hagent.symm⟩

/-- The Agent a revision was recorded for stood one revision before it. -/
theorem Versioned.revise (hversioned : tables.Versioned) {current : Agent}
    (hmem : current ∈ tables.agents) (hid : current.id = revision.agentId)
    (hrevision : current.currentRevision = revision.revision - 1)
    (harchived : current.archived = false) :
    Versioned { tables with
      agents := updateWhere (fun agent => agent.id = revision.agentId ∧
          agent.currentRevision = revision.revision - 1 ∧ agent.archived = false)
        (fun agent => { agent with currentRevision := revision.revision }) tables.agents
      agentRevisions := tables.agentRevisions ++ [revision] } := by
  have hstarted := hversioned.started current hmem
  have hnext : revision.revision = current.currentRevision + 1 := by omega
  have hmatched : ∀ agent ∈ tables.agents,
      (agent.id = revision.agentId ∧ agent.currentRevision = revision.revision - 1 ∧
        agent.archived = false) ↔ agent = current := by
    intro agent hagent
    constructor
    · rintro ⟨hid', -⟩
      exact hversioned.agents.eq_of_mem hagent hmem (hid'.trans hid.symm)
    · rintro rfl
      exact ⟨hid, hrevision, harchived⟩
  constructor
  · exact (unique_updateWhere fun _ => by rfl).mpr hversioned.agents
  · intro agent hagent
    rw [revisionsOf_append rfl]
    obtain ⟨old, hold, rfl⟩ := mem_updateWhere.mp hagent
    simp only [hmatched old hold, decide_eq_true_eq]
    by_cases heq : old = current
    · rw [if_pos heq, heq, if_pos hid.symm, List.map_append, hversioned.numbered current hmem,
        hnext, List.range'_concat, List.map_singleton, hnext, Nat.one_mul, Nat.add_comm]
    · have hother : revision.agentId ≠ old.id := fun hagent' =>
        heq (hversioned.agents.eq_of_mem hold hmem (hagent'.symm.trans hid.symm))
      rw [if_neg heq, if_neg hother, List.append_nil]
      exact hversioned.numbered old hold
  · intro agent hagent
    obtain ⟨old, hold, rfl⟩ := mem_updateWhere.mp hagent
    split
    · change 1 ≤ revision.revision
      omega
    · exact hversioned.started old hold
  · intro other hother
    have hkept : ∀ agent ∈ tables.agents, ∃ agent' ∈ updateWhere
        (fun agent => decide (agent.id = revision.agentId ∧
          agent.currentRevision = revision.revision - 1 ∧ agent.archived = false))
        (fun agent => { agent with currentRevision := revision.revision }) tables.agents,
        agent'.id = agent.id := by
      intro agent hagent
      refine ⟨_, mem_updateWhere.mpr ⟨agent, hagent, rfl⟩, ?_⟩
      split <;> rfl
    rcases List.mem_append.mp hother with hother | hother
    · obtain ⟨owner, howner, hid'⟩ := hversioned.owned other hother
      obtain ⟨owner', howner', hsame⟩ := hkept owner howner
      exact ⟨owner', howner', hsame.trans hid'⟩
    · obtain rfl := List.mem_singleton.mp hother
      obtain ⟨owner', howner', hsame⟩ := hkept current hmem
      exact ⟨owner', howner', hsame.trans hid⟩

/-- The Agent that `createRevision` found. -/
theorem exists_current
    (hcurrent : tables.agents.countP (fun agent => agent.id = revision.agentId ∧
      agent.currentRevision = revision.revision - 1 ∧ agent.archived = false) = 1) :
    ∃ current ∈ tables.agents, current.id = revision.agentId ∧
      current.currentRevision = revision.revision - 1 ∧ current.archived = false := by
  have hpos : 0 < tables.agents.countP (fun agent => agent.id = revision.agentId ∧
      agent.currentRevision = revision.revision - 1 ∧ agent.archived = false) := by omega
  simpa using List.countP_pos_iff.mp hpos

theorem Versioned.aggregate {batch : List JournalEvent} (hversioned : tables.Versioned)
    (hlawful : LawfulAggregate tables batch event.payload)
    (hproject : tables.projectAggregate event = .ok tables') : tables'.Versioned := by
  obtain ⟨middle, hchange, hagents, hrevisions⟩ := projectAggregate_agents hproject
  refine Versioned.congr ?_ hagents hrevisions
  cases hchange with
  | created agent initialRevision hpayload hnew =>
      rw [hpayload] at hlawful
      obtain ⟨hcurrent, hagent, hfirst⟩ := hlawful
      exact hversioned.create (fun other hother => (hnew other hother).1) hagent hfirst hcurrent
  | revised revision _ _ hcurrent =>
      obtain ⟨current, hmem, hid, hrevision, harchived⟩ := exists_current hcurrent
      exact hversioned.revise hmem hid hrevision harchived
  | renamed => exact hversioned.updateAgents rfl rfl (fun _ => rfl) fun _ => rfl
  | archived => exact hversioned.updateAgents rfl rfl (fun _ => rfl) fun _ => rfl
  | ignored => exact hversioned

/-! ## Later tables -/

/-- What later tables keep of the Agents, their revisions and the Sessions. -/
structure Extends (tables tables' : Projection) : Prop where
  revisions : tables.agentRevisions <+: tables'.agentRevisions
  agents : ∀ agent ∈ tables.agents, ∃ agent' ∈ tables'.agents, agent'.id = agent.id ∧
    agent.currentRevision ≤ agent'.currentRevision ∧
    (agent.archived = true → agent'.archived = true)
  sessions : ∀ session ∈ tables.sessions, ∃ session' ∈ tables'.sessions,
    session'.id = session.id ∧ session'.agentId = session.agentId

theorem Extends.refl (tables : Projection) : tables.Extends tables where
  revisions := List.prefix_refl _
  agents := fun agent hagent => ⟨agent, hagent, rfl, Nat.le_refl _, fun h => h⟩
  sessions := fun session hsession => ⟨session, hsession, rfl, rfl⟩

theorem Extends.trans {first second third : Projection} (hfirst : first.Extends second)
    (hsecond : second.Extends third) : first.Extends third where
  revisions := hfirst.revisions.trans hsecond.revisions
  agents := by
    intro agent hagent
    obtain ⟨agent', hagent', hid, hle, harchived⟩ := hfirst.agents agent hagent
    obtain ⟨agent'', hagent'', hid', hle', harchived'⟩ := hsecond.agents agent' hagent'
    exact ⟨agent'', hagent'', hid'.trans hid, hle.trans hle', fun h => harchived' (harchived h)⟩
  sessions := by
    intro session hsession
    obtain ⟨session', hsession', hid, hagent⟩ := hfirst.sessions session hsession
    obtain ⟨session'', hsession'', hid', hagent'⟩ := hsecond.sessions session' hsession'
    exact ⟨session'', hsession'', hid'.trans hid, hagent'.trans hagent⟩

/-- Rows updated in place keep what the update keeps of each. -/
theorem forall_updateWhere {R : Type} {matched : R → Bool} {change : R → R} {rows : List R}
    {Keeps : R → R → Prop} (hrefl : ∀ row, Keeps row row)
    (hchange : ∀ row ∈ rows, matched row = true → Keeps row (change row)) :
    ∀ row ∈ rows, ∃ row' ∈ updateWhere matched change rows, Keeps row row' := by
  intro row hrow
  refine ⟨_, mem_updateWhere.mpr ⟨row, hrow, rfl⟩, ?_⟩
  split
  · exact hchange row hrow ‹_›
  · exact hrefl row

theorem extends_of_aggregate (hproject : tables.projectAggregate event = .ok tables') :
    tables.Extends tables' := by
  obtain ⟨hsame, -⟩ := projectAggregate_same hproject
  obtain ⟨middle, hchange, hagents, hrevisions⟩ := projectAggregate_agents hproject
  refine ⟨?_, ?_, fun session hsession => ⟨session, by rwa [hsame.sessions_eq], rfl, rfl⟩⟩
  · rw [hrevisions]
    cases hchange <;> simp
  · rw [hagents]
    cases hchange with
    | created agent _ _ _ =>
        exact fun other hother =>
          ⟨other, List.mem_append_left _ hother, rfl, Nat.le_refl _, fun h => h⟩
    | revised revision _ _ _ =>
        refine forall_updateWhere (fun _ => ⟨rfl, Nat.le_refl _, fun h => h⟩) ?_
        intro agent _ hmatched
        simp only [decide_eq_true_eq] at hmatched
        have hle : agent.currentRevision ≤ revision.revision := by omega
        exact ⟨rfl, hle, fun h => h⟩
    | renamed =>
        exact forall_updateWhere (fun _ => ⟨rfl, Nat.le_refl _, fun h => h⟩)
          fun agent _ _ => ⟨rfl, Nat.le_refl _, fun h => h⟩
    | archived =>
        exact forall_updateWhere (fun _ => ⟨rfl, Nat.le_refl _, fun h => h⟩)
          fun agent _ _ => ⟨rfl, Nat.le_refl _, fun _ => rfl⟩
    | ignored => exact fun agent hagent => ⟨agent, hagent, rfl, Nat.le_refl _, fun h => h⟩

theorem extends_of_sessions (hsame : SameAggregates tables tables')
    (hsessions : ∀ session ∈ tables.sessions, ∃ session' ∈ tables'.sessions,
      session'.id = session.id ∧ session'.agentId = session.agentId) : tables.Extends tables' := by
  refine ⟨?_, ?_, hsessions⟩
  · exact hsame.revisions_eq.symm ▸ List.prefix_refl _
  · rw [hsame.agents_eq]
    exact fun agent hagent => ⟨agent, hagent, rfl, Nat.le_refl _, fun h => h⟩

theorem Placed.sessions_kept {sessionId : SessionId} {entryId : MessageId}
    {payload : SessionEntryPayload} {contextual : Bool} {key : Option String}
    {createdAt : DateTime} {entry : SessionEntry}
    (hplaced : Placed tables sessionId entryId payload contextual key createdAt tables' entry) :
    ∀ session ∈ tables.sessions, ∃ session' ∈ tables'.sessions,
      session'.id = session.id ∧ session'.agentId = session.agentId := by
  rw [hplaced.tables_eq]
  by_cases hcontextual : contextual = true
  · simp only [hcontextual, if_true, setLeaf]
    exact forall_updateWhere (fun _ => ⟨rfl, rfl⟩) fun _ _ _ => ⟨rfl, rfl⟩
  · simp only [hcontextual]
    exact fun session hsession => ⟨session, hsession, rfl, rfl⟩

theorem extends_of_change {sessionId : SessionId} {delivery : Option Delivery}
    (hchange : SessionChange world tables sessionId event tables' delivery) :
    tables.Extends tables' := by
  refine extends_of_sessions hchange.sameAggregates ?_
  cases hchange with
  | sessionCreated session =>
      exact fun other hother => ⟨other, List.mem_append_left _ hother, rfl, rfl⟩
  | modelChanged | leafChanged =>
      exact forall_updateWhere (fun _ => ⟨rfl, rfl⟩) fun _ _ _ => ⟨rfl, rfl⟩
  | entryAppended _ _ _ _ _ _ _ _ hplaced => exact hplaced.sessions_kept
  | turnAccepted _ _ _ _ _ _ _ _ _ hplaced => exact hplaced.sessions_kept
  | turnStarted _ _ _ _ _ _ hplaced => exact hplaced.sessions_kept
  | turnEnded _ _ _ _ _ _ _ _ _ hplaced => exact hplaced.sessions_kept
  | _ => exact fun session hsession => ⟨session, hsession, rfl, rfl⟩

/-! ## The revision of a Turn -/

/-- The Turn names one of the recorded revisions of the Agent of its Session. -/
def NamesRevision (tables : Projection) (recorded : List AgentRevision) (row : TurnRow) : Prop :=
  ∃ session ∈ tables.sessions, session.id = row.turn.sessionId ∧
    ∃ revision ∈ recorded, revision.agentId = session.agentId ∧
      revision.revision = row.turn.agentRevision

theorem NamesRevision.later {recorded recorded' : List AgentRevision} {row row' : TurnRow}
    (hnames : tables.NamesRevision recorded row) (hextends : tables.Extends tables')
    (hrecorded : recorded ⊆ recorded') (hsession : row'.turn.sessionId = row.turn.sessionId)
    (hrevision : row'.turn.agentRevision = row.turn.agentRevision) :
    tables'.NamesRevision recorded' row' := by
  obtain ⟨session, hmem, hid, revision, hrevisionMem, hagent, hnumber⟩ := hnames
  obtain ⟨session', hmem', hid', hagent'⟩ := hextends.sessions session hmem
  refine ⟨session', hmem', by rw [hid', hid, hsession], revision, hrecorded hrevisionMem, ?_, ?_⟩
  · rw [hagent, hagent']
  · rw [hnumber, hrevision]

theorem namesRevision_of_revisionExists {row : TurnRow}
    (hexists : tables.revisionExists row.turn.sessionId row.turn.agentRevision = true) :
    tables.NamesRevision tables.agentRevisions row := by
  simpa [NamesRevision, revisionExists] using hexists

/-- Where the Turns of later tables come from. -/
theorem turns_of_change {sessionId : SessionId} {delivery : Option Delivery}
    (hchange : SessionChange world tables sessionId event tables' delivery) :
    ∀ row' ∈ tables'.turns,
      (∃ row ∈ tables.turns, row'.turn.id = row.turn.id ∧
        row'.turn.sessionId = row.turn.sessionId ∧
        row'.turn.agentRevision = row.turn.agentRevision) ∨
      tables'.NamesRevision tables'.agentRevisions row' ∧
        ∃ turnId agentRevision entryId content metadata source, event.payload =
          .turnAccepted turnId agentRevision entryId content metadata source := by
  have hupdated : ∀ (matched : TurnRow → Bool) (change : TurnRow → TurnRow),
      (∀ row, (change row).turn.id = row.turn.id ∧
        (change row).turn.sessionId = row.turn.sessionId ∧
        (change row).turn.agentRevision = row.turn.agentRevision) →
      ∀ row' ∈ updateWhere matched change tables.turns, ∃ row ∈ tables.turns,
        row'.turn.id = row.turn.id ∧ row'.turn.sessionId = row.turn.sessionId ∧
        row'.turn.agentRevision = row.turn.agentRevision := by
    intro matched change hkeys row' hrow'
    obtain ⟨row, hrow, rfl⟩ := mem_updateWhere.mp hrow'
    refine ⟨row, hrow, ?_⟩
    split
    · exact hkeys row
    · exact ⟨rfl, rfl, rfl⟩
  cases hchange with
  | entryAppended _ _ _ _ _ _ _ _ hplaced =>
      rw [hplaced.turns_eq]
      exact fun row hrow => .inl ⟨row, hrow, rfl, rfl, rfl⟩
  | turnAccepted turnId agentRevision entryId content metadata source _ _ hpayload hplaced _
      hrevision =>
      intro row hrow
      rcases List.mem_append.mp hrow with hrow | hrow
      · rw [hplaced.turns_eq] at hrow
        exact .inl ⟨row, hrow, rfl, rfl, rfl⟩
      · obtain rfl := List.mem_singleton.mp hrow
        exact .inr ⟨namesRevision_of_revisionExists hrevision, _, _, _, _, _, _, hpayload⟩
  | turnStarted _ harness _ _ _ _ hplaced =>
      rw [hplaced.turns_eq]
      intro row hrow
      exact .inl (hupdated _ (TurnRow.withHarness harness) (fun _ => ⟨rfl, rfl, rfl⟩) row hrow)
  | turnEnded _ status error _ _ _ _ _ _ hplaced =>
      rw [hplaced.turns_eq]
      intro row hrow
      exact .inl (hupdated _ (TurnRow.ended status error event.recordedAt)
        (fun _ => ⟨rfl, rfl, rfl⟩) row hrow)
  | _ => exact fun row hrow => .inl ⟨row, hrow, rfl, rfl, rfl⟩

/-- Every Turn names a recorded revision. -/
def TurnsNamed (tables : Projection) : Prop :=
  ∀ row ∈ tables.turns, tables.NamesRevision tables.agentRevisions row

theorem TurnsNamed.change (hnamed : tables.TurnsNamed) {sessionId : SessionId}
    {delivery : Option Delivery}
    (hchange : SessionChange world tables sessionId event tables' delivery) :
    tables'.TurnsNamed := by
  intro row' hrow'
  rcases turns_of_change hchange row' hrow' with ⟨row, hrow, -, hsession, hrevision⟩ | ⟨hnames, -⟩
  · have hextends := extends_of_change hchange
    exact (hnamed row hrow).later hextends hextends.revisions.subset hsession hrevision
  · exact hnames

theorem TurnsNamed.aggregate (hnamed : tables.TurnsNamed)
    (hproject : tables.projectAggregate event = .ok tables') : tables'.TurnsNamed := by
  intro row hrow
  obtain ⟨hsame, -⟩ := projectAggregate_same hproject
  rw [hsame.turns_eq] at hrow
  have hextends := extends_of_aggregate hproject
  exact (hnamed row hrow).later hextends hextends.revisions.subset rfl rfl

end Projection

namespace Store

open Projection

variable {world : World} {footprint : Footprint} {store store' : Store}

theorem Moves.versioned (hmoves : Moves world footprint store store')
    (hversioned : store.projection.Versioned) : store'.projection.Versioned := by
  refine hmoves.tables_invariant Versioned ?_ ?_ hversioned
  · rintro tables tables' ⟨sessionId, event, delivery, -, -, hchange⟩ hversioned
    have hsame := hchange.sameAggregates
    exact hversioned.congr hsame.agents_eq hsame.revisions_eq
  · exact fun tables tables' event batch hlawful hproject hversioned =>
      hversioned.aggregate hlawful hproject

theorem Moves.turnsNamed (hmoves : Moves world footprint store store')
    (hnamed : store.projection.TurnsNamed) : store'.projection.TurnsNamed := by
  refine hmoves.tables_invariant TurnsNamed ?_ ?_ hnamed
  · rintro tables tables' ⟨sessionId, event, delivery, -, -, hchange⟩ hnamed
    exact hnamed.change hchange
  · exact fun tables tables' event batch _ hproject hnamed => hnamed.aggregate hproject

theorem Moves.extends (hmoves : Moves world footprint store store') :
    store.projection.Extends store'.projection := by
  refine hmoves.tables_related Projection.Extends Projection.Extends.refl
    (fun _ _ _ => Projection.Extends.trans) ?_ ?_
  · rintro tables tables' ⟨sessionId, event, delivery, -, -, hchange⟩
    exact extends_of_change hchange
  · exact fun tables tables' event batch _ _ hproject => extends_of_aggregate hproject

theorem run_versioned (world : World) (ops : List StoreOp) : (run world ops).projection.Versioned :=
  (runFrom_moves world keyed_empty ops).versioned versioned_empty

theorem run_turnsNamed (world : World) (ops : List StoreOp) :
    (run world ops).projection.TurnsNamed :=
  (runFrom_moves world keyed_empty ops).turnsNamed (by simp [TurnsNamed, Store.empty, Projection.empty])

/-- Without an Agent event no revision is recorded. -/
theorem Moves.revisions_eq (hmoves : Moves world footprint store store')
    (hnone : ∀ payload, footprint.produces payload → isAgentPayload payload = false) :
    store'.projection.agentRevisions = store.projection.agentRevisions := by
  refine hmoves.tables_related
    (fun tables tables' => tables'.agentRevisions = tables.agentRevisions) (fun _ => rfl)
    (fun _ _ _ hfirst hsecond => hsecond.trans hfirst) ?_ ?_
  · rintro tables tables' ⟨sessionId, event, delivery, -, -, hchange⟩
    exact hchange.sameAggregates.revisions_eq
  · intro tables tables' event batch _ hproduces hproject
    obtain ⟨middle, hchange, -, hrevisions⟩ := projectAggregate_agents hproject
    have hpayload := hnone _ hproduces
    rw [hrevisions]
    cases hchange with
    | created _ _ heq => simp [heq, isAgentPayload] at hpayload
    | revised _ heq => simp [heq, isAgentPayload] at hpayload
    | _ => rfl

/-- A Turn is there already or has been accepted. -/
theorem Moves.turn_accepted (hmoves : Moves world footprint store store') :
    ∀ row' ∈ store'.projection.turns,
      (∃ row ∈ store.projection.turns, row.turn.id = row'.turn.id) ∨
      ∃ turnId agentRevision entryId content metadata source,
        footprint.produces (.turnAccepted turnId agentRevision entryId content metadata source) := by
  induction hmoves with
  | refl => exact fun row hrow => .inl ⟨row, hrow, rfl⟩
  | tail _ hmove ih =>
      intro row'' hrow''
      rcases hmove.session_tables with hsame | ⟨_, entry, _, -, -, -, hproduces, hchange⟩
      · rw [hsame.turns_eq] at hrow''
        exact ih row'' hrow''
      · rcases turns_of_change hchange row'' hrow'' with ⟨row', hrow', hid, -⟩ | ⟨-, haccepted⟩
        · rcases ih row' hrow' with ⟨row, hrow, hid'⟩ | haccepted
          · exact .inl ⟨row, hrow, hid'.trans hid.symm⟩
          · exact .inr haccepted
        · obtain ⟨turnId, agentRevision, entryId, content, metadata, source, heq⟩ := haccepted
          rw [heq] at hproduces
          exact .inr ⟨turnId, agentRevision, entryId, content, metadata, source, hproduces⟩

/-- A command that accepts Turns records no Agent event. -/
theorem no_agent_event_of_accepts {op : StoreOp} {turnId : TurnId} {agentRevision : Nat}
    {entryId : MessageId} {content : MessageContent} {metadata : Value} {source : MessageSource}
    (hproduces : op.produces
      (.turnAccepted turnId agentRevision entryId content metadata source)) {payload : JournalEvent}
    (hpayload : op.produces payload) : isAgentPayload payload = false := by
  cases op with
  | acceptTurnIdempotent =>
      obtain ⟨_, _, _, rfl⟩ := hpayload
      rfl
  | finishEffect | finishTurnWithStopReason | recoverInterruptedWork =>
      cases StoreOp.endsWork_of_produces rfl hproduces
  | _ => simp [StoreOp.produces, observationPayload] at hproduces

/-- A Turn that a command accepts names a revision recorded before the command. -/
theorem step_accepts (world : World) {store : Store} (hkeyed : store.projection.Keyed)
    (hnamed : store.projection.TurnsNamed) (op : StoreOp) {row : TurnRow}
    (hrow : row ∈ (step world store op).projection.turns)
    (hnew : ∀ old ∈ store.projection.turns, old.turn.id ≠ row.turn.id) :
    (step world store op).projection.NamesRevision store.projection.agentRevisions row := by
  have hmoves := step_moves world hkeyed op
  rcases hmoves.turn_accepted row hrow with ⟨old, hold, hid⟩ | ⟨_, _, _, _, _, _, hproduces⟩
  · exact absurd hid (hnew old hold)
  · rw [← hmoves.revisions_eq fun payload => no_agent_event_of_accepts hproduces]
    exact hmoves.turnsNamed hnamed row hrow

/-! ## Updates -/

section Updates

variable {context : CommandContext} {agentId : AgentId} {expectedRevision : Nat}
  {soul configToml : String} {authorHostId : HostId}

theorem runs_decideUpdateAgent {decision : AgentRevision × List JournalSubjectAppend} :
    Runs (decideUpdateAgent world agentId expectedRevision soul configToml authorHostId) store
        decision store' ↔
      ∃ agent, (store.projection.agents.find? fun agent =>
          agent.id = agentId ∧ agent.archived = false) = some agent ∧
        agent.currentRevision = expectedRevision ∧
        let next := revision world agentId (agent.currentRevision + 1) soul configToml authorHostId
          (world.now store.drawn)
        decision = (next, [{ subject := .agent agentId, entries :=
          [⟨⟨world.uuid (store.drawn + 1)⟩, hostActor authorHostId, none,
            .agentRevisionCreated next⟩] }]) ∧
        store' = { store with drawn := store.drawn + 2 } := by
  simp only [decideUpdateAgent, runs_bind, select, runs_reads_iff, runs_expect_iff,
    runs_require_iff, runs_utcNow_iff, runs_singleSubject_iff, runs_pure_iff]
  constructor
  · rintro ⟨_, _, ⟨rfl, rfl⟩, agent, _, ⟨hfind, rfl⟩, _, _, ⟨hexpected, rfl⟩, _, _, ⟨rfl, rfl⟩, _, _,
      ⟨rfl, rfl⟩, rfl, rfl⟩
    exact ⟨agent, hfind, hexpected, rfl, rfl⟩
  · rintro ⟨agent, hfind, hexpected, rfl, rfl⟩
    exact ⟨_, _, ⟨rfl, rfl⟩, agent, _, ⟨hfind, rfl⟩, (), _, ⟨hexpected, rfl⟩, _, _, ⟨rfl, rfl⟩, _, _,
      ⟨rfl, rfl⟩, rfl, rfl⟩

/-- What a new update needs: a valid definition by an enrolled Host, made from
the current revision of an Agent that is not archived, and a new event
identifier. -/
structure Updatable (world : World) (store : Store) (agentId : AgentId) (expectedRevision : Nat)
    (soul configToml : String) (authorHostId : HostId) : Prop where
  definition : validateDefinition world soul configToml = .ok ()
  author : store.projection.hostExists authorHostId = true
  current : ∃ agent ∈ store.projection.agents, agent.id = agentId ∧ agent.archived = false ∧
    agent.currentRevision = expectedRevision
  fresh : ∀ entry ∈ store.journalEntries, entry.id ≠ ⟨world.uuid (store.drawn + 1)⟩

theorem Versioned.find?_agent (hversioned : store.projection.Versioned) {agent : Agent} :
    (store.projection.agents.find? fun agent => agent.id = agentId ∧ agent.archived = false) =
        some agent ↔
      agent ∈ store.projection.agents ∧ agent.id = agentId ∧ agent.archived = false := by
  constructor
  · intro hfind
    exact ⟨List.mem_of_find?_eq_some hfind, by simpa using List.find?_some hfind⟩
  · rintro ⟨hmem, hid, harchived⟩
    cases hfind : store.projection.agents.find? fun agent =>
        agent.id = agentId ∧ agent.archived = false with
    | none =>
        have hnone := List.find?_eq_none.mp hfind agent hmem
        simp [hid, harchived] at hnone
    | some found =>
        have hfound : found.id = agentId ∧ found.archived = false := by
          simpa using List.find?_some hfind
        rw [hversioned.agents.eq_of_mem (List.mem_of_find?_eq_some hfind) hmem
          (hfound.1.trans hid.symm)]

/-- The next revision of the Agent is recorded. -/
theorem createRevision_next (hversioned : store.projection.Versioned) {agent : Agent}
    (hmem : agent ∈ store.projection.agents) (harchived : agent.archived = false)
    {next : AgentRevision} (hagent : next.agentId = agent.id)
    (hnext : next.revision = agent.currentRevision + 1)
    {tables : Projection} : 
    store.projection.createRevision next = .ok tables ↔
      store.projection.hostExists next.authorHostId = true ∧
      tables = { store.projection with
        agents := updateWhere (fun agent => agent.id = next.agentId ∧
            agent.currentRevision = next.revision - 1 ∧ agent.archived = false)
          (fun agent => { agent with currentRevision := next.revision }) store.projection.agents
        agentRevisions := store.projection.agentRevisions ++ [next] } := by
  have hunique : ∀ other ∈ store.projection.agentRevisions,
      ¬(other.agentId = next.agentId ∧ other.revision = next.revision) := by
    rintro other hother ⟨hagent', hrevision⟩
    have hmem' : other.revision ∈ List.range' 1 agent.currentRevision := by
      rw [← hversioned.numbered agent hmem]
      exact List.mem_map_of_mem (List.mem_filter.mpr ⟨hother, by simp [hagent', hagent]⟩)
    rw [List.mem_range'_1] at hmem'
    omega
  have hexists : store.projection.agentExists next.agentId = true := by
    rw [agentExists, List.any_eq_true]
    exact ⟨agent, hmem, by simp [hagent]⟩
  have hcount : store.projection.agents.countP (fun other => other.id = next.agentId ∧
      other.currentRevision = next.revision - 1 ∧ other.archived = false) = 1 := by
    apply hversioned.agents.countP_eq_one hmem
    · simp [hagent, hnext, harchived]
    · intro other _ hother
      have hid : other.id = next.agentId := by simp_all
      exact hid.trans hagent
  simp only [createRevision, insertRevision, bind_eq_ok, exists_unit, demand_eq_ok, pure_eq_ok,
    hexists, true_and]
  constructor
  · rintro ⟨_, ⟨-, hauthor, rfl⟩, hupdated⟩
    rw [if_pos hcount, pure_eq_ok] at hupdated
    exact ⟨hauthor, hupdated.symm⟩
  · rintro ⟨hauthor, rfl⟩
    refine ⟨_, ⟨hunique, hauthor, rfl⟩, ?_⟩
    rw [if_pos hcount, pure_eq_ok]

theorem updateAgent_eq_call :
    updateAgent world context agentId expectedRevision soul configToml authorHostId =
      Transacting.call world
        { Output := AgentRevision
          codec := inferInstance
          context
          operation := "update_agent"
          requestHash := world.requestHash
            (.updateAgent agentId expectedRevision soul configToml authorHostId)
          check := validateDefinition world soul configToml
          decide := decideUpdateAgent world agentId expectedRevision soul configToml authorHostId
          mutate := applyAgentEvents } := rfl

/-- A new update that succeeds was `Updatable` and records one revision. -/
theorem Updatable.of_runs (hversioned : store.projection.Versioned)
    (hnone : store.selectCommandReceipt (context.operationId "update_agent") = none)
    {next : AgentRevision}
    (hrun : Runs (updateAgent world context agentId expectedRevision soul configToml authorHostId)
      store next store') :
    Updatable world store agentId expectedRevision soul configToml authorHostId ∧
      next = revision world agentId (expectedRevision + 1) soul configToml authorHostId
        (world.now store.drawn) ∧
      store.projection.createRevision next = .ok store'.projection := by
  rw [updateAgent_eq_call, Transacting.runs_call_first hnone] at hrun
  simp only [runs_decideUpdateAgent] at hrun
  obtain ⟨hdefinition, subjects, decided, appended, ⟨agent, hfind, rfl, hdecision, rfl⟩, happend⟩ :=
    hrun
  obtain ⟨rfl, rfl⟩ := Prod.mk.inj hdecision
  obtain ⟨-, hfresh, committed, tables, hcommitted, hproject, -, rfl⟩ :=
    (runs_append_one rfl rfl hnone).mp happend
  obtain ⟨hmem, hid, harchived⟩ := (Versioned.find?_agent hversioned).mp hfind
  subst hcommitted
  have hauthor := ((createRevision_next hversioned hmem harchived hid.symm rfl).mp hproject).1
  exact ⟨⟨hdefinition, hauthor, ⟨agent, hmem, hid, harchived, rfl⟩, hfresh⟩, rfl, hproject⟩

theorem Updatable.runs (hversioned : store.projection.Versioned)
    (hnone : store.selectCommandReceipt (context.operationId "update_agent") = none)
    (hupdatable : Updatable world store agentId expectedRevision soul configToml authorHostId) :
    ∃ next store', Runs
      (updateAgent world context agentId expectedRevision soul configToml authorHostId) store next
      store' := by
  obtain ⟨hdefinition, hauthor, ⟨agent, hmem, hid, harchived, rfl⟩, hfresh⟩ := hupdatable
  generalize hnext : revision world agentId (agent.currentRevision + 1) soul configToml
    authorHostId (world.now store.drawn) = next
  have hproject : ∃ tables, store.projection.createRevision next = .ok tables := by
    subst hnext
    exact ⟨_, (createRevision_next hversioned hmem harchived hid.symm rfl).mpr ⟨hauthor, rfl⟩⟩
  obtain ⟨tables, hproject⟩ := hproject
  have hfind := (Versioned.find?_agent hversioned).mpr ⟨hmem, hid, harchived⟩
  have hvalid : validateNewEntry (.agent agentId) ⟨⟨world.uuid (store.drawn + 1)⟩, context.actor,
      context.correlationId, .agentRevisionCreated next⟩ = .ok () := by
    subst hnext
    simp [validateNewEntry, JournalEvent.subjectType, JournalSubject.kind, demand,
      JournalEvent.validateSubjectId, revision]
    rfl
  obtain ⟨appended, reached, happend⟩ : ∃ appended reached, Runs (appendJournalEntriesIn world
      (context.decorate
        { commandId := context.operationId "update_agent"
          requestHash := world.requestHash
            (.updateAgent agentId agent.currentRevision soul configToml authorHostId)
          result := CommandOutput.encode next
          subjects := [{ subject := .agent agentId, entries :=
            [⟨⟨world.uuid (store.drawn + 1)⟩, hostActor authorHostId, none,
              .agentRevisionCreated next⟩] }] }) applyAgentEvents)
      { store with drawn := store.drawn + 2 } appended reached :=
    ⟨_, _, (runs_append_one rfl rfl hnone).mpr ⟨hvalid, hfresh, _, tables, rfl, hproject, rfl, rfl⟩⟩
  refine ⟨next, reached, ?_⟩
  rw [updateAgent_eq_call, Transacting.runs_call_first hnone]
  simp only [runs_decideUpdateAgent]
  exact ⟨hdefinition, _, _, _, ⟨agent, hfind, rfl, by rw [hnext], rfl⟩, happend⟩

/-- After an update from a revision there is no second one from it. -/
theorem Updatable.superseded (hversioned : store.projection.Versioned) {tables : Projection}
    (hextends : tables.Extends store.projection) {agent : Agent} (hagent : agent ∈ tables.agents)
    (hid : agent.id = agentId) (hlater : expectedRevision < agent.currentRevision) :
    ¬Updatable world store agentId expectedRevision soul configToml authorHostId := by
  rintro ⟨-, -, ⟨current, hmem, hid', -, hcurrent⟩, -⟩
  obtain ⟨agent', hmem', hid'', hle, -⟩ := hextends.agents agent hagent
  have heq := hversioned.agents.eq_of_mem hmem hmem' (hid'.trans (hid''.trans hid).symm)
  rw [heq] at hcurrent
  omega

end Updates

/-- Agent revisions over whole runs. -/
theorem agent_revisions (world : World) (ops : List StoreOp) :
    let store := run world ops
    let tables := store.projection
    (∀ agent ∈ tables.agents,
      (tables.revisionsOf agent.id).map (·.revision) = List.range' 1 agent.currentRevision) ∧
    (∀ later, tables.agentRevisions <+: (runFrom world store later).projection.agentRevisions) ∧
    (∀ row ∈ tables.turns, tables.NamesRevision tables.agentRevisions row) ∧
    (∀ op, ∀ row ∈ (step world store op).projection.turns,
      (∀ old ∈ tables.turns, old.turn.id ≠ row.turn.id) →
      (step world store op).projection.NamesRevision tables.agentRevisions row) ∧
    ∀ (context : CommandContext) (agentId : AgentId) (expectedRevision : Nat)
      (soul configToml : String) (authorHostId : HostId),
      let update := updateAgent world context agentId expectedRevision soul configToml authorHostId
      (∀ receipt, store.selectCommandReceipt (context.operationId "update_agent") = some receipt →
        ∀ next store', Runs update store next store' → store' = store) ∧
      (store.selectCommandReceipt (context.operationId "update_agent") = none →
        ((∃ next store', Runs update store next store') ↔
          Updatable world store agentId expectedRevision soul configToml authorHostId) ∧
        ∀ next store', Runs update store next store' →
          next.agentId = agentId ∧ next.revision = expectedRevision + 1 ∧
          store'.projection.agentRevisions = tables.agentRevisions ++ [next] ∧
          ∀ later (context' : CommandContext) (soul' configToml' : String) (authorHostId' : HostId),
            let final := runFrom world store' later
            final.selectCommandReceipt (context'.operationId "update_agent") = none →
            ¬∃ next' store'', Runs (updateAgent world context' agentId expectedRevision soul'
              configToml' authorHostId') final next' store'') := by
  intro store tables
  have hkeyed : tables.Keyed := run_keyed world ops
  have hversioned : tables.Versioned := run_versioned world ops
  have hnamed : tables.TurnsNamed := run_turnsNamed world ops
  refine ⟨hversioned.numbered, fun later => (runFrom_moves world hkeyed later).extends.revisions,
    hnamed, fun op row hrow hnew => step_accepts world hkeyed hnamed op hrow hnew, ?_⟩
  intro context agentId expectedRevision soul configToml authorHostId update
  constructor
  · intro receipt hfound next store' hrun
    rw [show update = _ from updateAgent_eq_call] at hrun
    exact Transacting.runs_call_again hrun hfound
  intro hnone
  constructor
  · constructor
    · rintro ⟨next, store', hrun⟩
      exact (Updatable.of_runs hversioned hnone hrun).1
    · exact fun hupdatable => hupdatable.runs hversioned hnone
  intro next store' hrun
  obtain ⟨hupdatable, hnext, hproject⟩ := Updatable.of_runs hversioned hnone hrun
  obtain ⟨agent, hmem, hid, harchived, hcurrent⟩ := hupdatable.current
  subst hcurrent
  have hnextId : next.agentId = agent.id := by rw [hnext, hid]; rfl
  have hnextRevision : next.revision = agent.currentRevision + 1 := by rw [hnext]; rfl
  obtain ⟨-, htables⟩ := (createRevision_next hversioned hmem harchived hnextId hnextRevision).mp
    hproject
  refine ⟨hnextId.trans hid, hnextRevision, by rw [htables], ?_⟩
  intro later context' soul' configToml' authorHostId' final hnone' hagain
  obtain ⟨next', store'', hrun'⟩ := hagain
  have hstep : store' = step world store
      (.updateAgent context agentId agent.currentRevision soul configToml authorHostId) := by
    have hdiscard : Runs (discard update) store () store' := hrun.bind (runs_pure _ _)
    exact (congrArg Prod.snd hdiscard).symm
  have hkeyed' : store'.projection.Keyed := hstep ▸ step_keyed hkeyed _
  have hversioned' : store'.projection.Versioned :=
    hstep ▸ (step_moves world hkeyed _).versioned hversioned
  have hmoves := runFrom_moves world hkeyed' later
  have hrevised : { agent with currentRevision := next.revision } ∈ store'.projection.agents := by
    rw [htables]
    refine mem_updateWhere.mpr ⟨agent, hmem, ?_⟩
    rw [if_pos (by simp [hnextId, hnextRevision, harchived])]
  have hlater : agent.currentRevision < next.revision := by omega
  exact Updatable.superseded (hmoves.versioned hversioned') hmoves.extends hrevised hid hlater
    (Updatable.of_runs (hmoves.versioned hversioned') hnone' hrun').1
/-- An update from the current revision of an Agent that is not archived is
refused for its definition. -/
theorem update_of_blank_soul :
    let context : CommandContext := { commandId := "1", actor := .system, correlationId := none }
    let store := run World.numbered [.initializeHub context "hub" "a" "b" "c",
      .createAgent context "mews" "soul" "native" ⟨"1"⟩]
    (store.projection.agents.any fun agent =>
      agent.id = ⟨"7"⟩ ∧ agent.archived = false ∧ agent.currentRevision = 1) = true ∧
    ∀ next store', ¬Runs (updateAgent World.numbered context ⟨"7"⟩ 1 " " "native" ⟨"1"⟩) store next
      store' := by
  intro context store
  refine ⟨by decide +kernel, fun next store' hrun => ?_⟩
  simp only [updateAgent, runs_bind, runs_lift_iff] at hrun
  obtain ⟨⟨⟩, _, ⟨hvalid, -⟩, -⟩ := hrun
  exact absurd hvalid (by decide)

end Store

end Mews
