import Mews.Store.Recording

/-!
# Keys of the Session tables

Which moves touch the Session tables, the rule that carries an invariant of
these tables along a chain of moves, and the first such invariant: the keys and
references of Turns, effects and timeline entries.
-/

namespace Mews

open Protocol Table

namespace Projection

variable {world : World} {tables tables' : Projection} {event : JournalEntry}
  {sessionId : SessionId} {delivery : Option Delivery}

/-- The tables that only Session entries write are the same. -/
structure SameSessions (tables tables' : Projection) : Prop where
  sessions_eq : tables'.sessions = tables.sessions
  bindings_eq : tables'.acpSessionBindings = tables.acpSessionBindings
  entries_eq : tables'.sessionEntries = tables.sessionEntries
  turns_eq : tables'.turns = tables.turns
  effects_eq : tables'.effects = tables.effects

theorem SameSessions.refl (tables : Projection) : tables.SameSessions tables :=
  ⟨rfl, rfl, rfl, rfl, rfl⟩

theorem SameSessions.trans {first second third : Projection} (hfirst : first.SameSessions second)
    (hsecond : second.SameSessions third) : first.SameSessions third where
  sessions_eq := hsecond.sessions_eq.trans hfirst.sessions_eq
  bindings_eq := hsecond.bindings_eq.trans hfirst.bindings_eq
  entries_eq := hsecond.entries_eq.trans hfirst.entries_eq
  turns_eq := hsecond.turns_eq.trans hfirst.turns_eq
  effects_eq := hsecond.effects_eq.trans hfirst.effects_eq

/-- The Agent projection writes Agents and their revisions; no Agent is removed. -/
theorem projectAgent_writes (hproject : tables.projectAgent event = .ok tables') :
    ∃ agents agentRevisions, tables' = { tables with agents, agentRevisions } ∧
      tables.agents.map (·.id) ⊆ agents.map (·.id) := by
  rw [projectAgent] at hproject
  split at hproject
  · simp only [createAgent, insertRevision, bind_eq_ok, exists_unit, demand_eq_ok,
      pure_eq_ok] at hproject
    obtain ⟨-, -, -, rfl⟩ := hproject
    exact ⟨_, _, rfl, by simp⟩
  · simp only [createRevision, insertRevision, bind_eq_ok, exists_unit, demand_eq_ok,
      pure_eq_ok] at hproject
    obtain ⟨_, ⟨-, -, rfl⟩, hproject⟩ := hproject
    split at hproject
    · obtain rfl := pure_eq_ok.mp hproject
      exact ⟨_, _, rfl, by simp [map_updateWhere]⟩
    · split at hproject <;> simp [throw, throwThe, MonadExceptOf.throw] at hproject
  · simp only [renameAgent, bind_eq_ok, exists_unit, demand_eq_ok, pure_eq_ok] at hproject
    obtain ⟨-, rfl⟩ := hproject
    exact ⟨_, _, rfl, by simp [map_updateWhere]⟩
  · simp only [archiveAgent, bind_eq_ok, exists_unit, demand_eq_ok, pure_eq_ok] at hproject
    obtain ⟨-, rfl⟩ := hproject
    exact ⟨_, _, rfl, by simp [map_updateWhere]⟩
  · cases hproject
    exact ⟨_, _, rfl, by simp⟩

theorem projectHost_writes (hproject : tables.projectHost event = .ok tables') :
    ∃ hosts invitations, tables' = { tables with hosts, invitations } := by
  rw [projectHost] at hproject
  split at hproject
  · simp only [enrollHost, bind_eq_ok, exists_unit, demand_eq_ok, pure_eq_ok] at hproject
    exact ⟨_, _, hproject.2.symm⟩
  · simp only [revokeHost, bind_eq_ok, exists_unit, demand_eq_ok, pure_eq_ok] at hproject
    exact ⟨_, _, hproject.2.symm⟩
  · simp only [createInvitation, bind_eq_ok, exists_unit, demand_eq_ok, pure_eq_ok] at hproject
    exact ⟨_, _, hproject.2.symm⟩
  · simp only [consumeInvitation, bind_eq_ok, updateOne_eq_ok, pure_eq_ok] at hproject
    obtain ⟨_, -, rfl⟩ := hproject
    exact ⟨_, _, rfl⟩
  · cases hproject
    exact ⟨_, _, rfl⟩

theorem projectInstallation_writes (hproject : tables.projectInstallation event = .ok tables') :
    ∃ hosts installation settings, tables' = { tables with hosts, installation, settings } := by
  rw [projectInstallation] at hproject
  split at hproject
  · simp only [createInstallation, bind_eq_ok, exists_unit, demand_eq_ok, pure_eq_ok] at hproject
    exact ⟨_, _, _, hproject.2.symm⟩
  · cases hproject
    exact ⟨_, _, _, rfl⟩
  · cases hproject
    exact ⟨_, _, _, rfl⟩
  · simp only [changeHub, bind_eq_ok, exists_unit, demand_eq_ok, pure_eq_ok] at hproject
    exact ⟨_, _, _, hproject.2.symm⟩
  · cases hproject
    exact ⟨_, _, _, rfl⟩

/-- An entry of another aggregate leaves the Session tables alone and removes
no Agent. -/
theorem projectAggregate_same (hproject : tables.projectAggregate event = .ok tables') :
    tables.SameSessions tables' ∧ tables.agents.map (·.id) ⊆ tables'.agents.map (·.id) := by
  simp only [projectAggregate, bind_eq_ok] at hproject
  obtain ⟨_, hagent, _, hhost, hinstallation⟩ := hproject
  obtain ⟨agents, agentRevisions, rfl, hagents⟩ := projectAgent_writes hagent
  obtain ⟨hosts, invitations, rfl⟩ := projectHost_writes hhost
  obtain ⟨hosts', installation, settings, rfl⟩ := projectInstallation_writes hinstallation
  exact ⟨⟨rfl, rfl, rfl, rfl, rfl⟩, hagents⟩

theorem foldlM_projectAggregate_same {events : List JournalEntry}
    (hproject : events.foldlM projectAggregate tables = .ok tables') :
    tables.SameSessions tables' ∧ tables.agents.map (·.id) ⊆ tables'.agents.map (·.id) := by
  induction events generalizing tables with
  | nil =>
      cases hproject
      exact ⟨.refl _, fun _ h => h⟩
  | cons event events ih =>
      rw [List.foldlM_cons, bind_eq_ok] at hproject
      obtain ⟨_, hevent, hevents⟩ := hproject
      obtain ⟨hsame, hagents⟩ := projectAggregate_same hevent
      obtain ⟨hsame', hagents'⟩ := ih hevents
      exact ⟨hsame.trans hsame', fun _ hagent => hagents' (hagents hagent)⟩

end Projection

namespace Store

variable {world : World} {footprint : Footprint} {store store' : Store}

/-- A move leaves the Session tables alone or projects one lawful Session entry. -/
theorem Move.session_tables (hmove : Move world footprint store store') :
    store.projection.SameSessions store'.projection ∨
    ∃ sessionId entry delivery, entry.subject = .session sessionId ∧
      store'.journalEntries = store.journalEntries ++ [entry] ∧
      Lawful footprint.closing store.projection sessionId entry.payload ∧
      footprint.produces entry.payload ∧
      Projection.SessionChange world store.projection sessionId entry store'.projection
        delivery := by
  cases hmove with
  | projected sessionId entry tables delivery hsubject _ _ hlawful hproduces hproject =>
      refine .inr ⟨sessionId, entry, delivery, hsubject, by simp, hlawful, hproduces, ?_⟩
      simpa using Projection.projectSession_change hsubject hproject
  | aggregated _ _ _ _ _ _ _ _ hproject =>
      exact .inl (Projection.foldlM_projectAggregate_same hproject).1
  | delivered _ hmove =>
      rw [hmove.keeps.1]
      exact .inl (.refl _)
  | _ => exact .inl (.refl _)

/-- Two tables a Session entry takes to each other under the guards of its
payload. -/
def LawfulChange (world : World) (closing : TurnId → Prop) (tables tables' : Projection) : Prop :=
  ∃ sessionId event delivery, event.subject = .session sessionId ∧
    Lawful closing tables sessionId event.payload ∧
    Projection.SessionChange world tables sessionId event tables' delivery

/-- A relation that holds between equal Session tables and across every lawful
Session entry holds between the ends of a chain of moves. -/
theorem Moves.session_related (R : Projection → Projection → Prop)
    (hsame : ∀ tables tables', tables.SameSessions tables' → R tables tables')
    (htrans : ∀ first second third, R first second → R second third → R first third)
    (hchange : ∀ tables tables', LawfulChange world footprint.closing tables tables' →
      R tables tables')
    (hmoves : Moves world footprint store store') : R store.projection store'.projection := by
  induction hmoves with
  | refl => exact hsame _ _ (.refl _)
  | tail _ hmove ih =>
      refine htrans _ _ _ ih ?_
      rcases hmove.session_tables with hsame' | ⟨sessionId, event, delivery, hsubject, -, hlawful,
        -, hchange'⟩
      · exact hsame _ _ hsame'
      · exact hchange _ _ ⟨sessionId, event, delivery, hsubject, hlawful, hchange'⟩

/-- An invariant of the Session tables that every lawful entry keeps. -/
theorem Moves.session_invariant (Inv : Projection → Prop)
    (hsame : ∀ tables tables', tables.SameSessions tables' → Inv tables → Inv tables')
    (hchange : ∀ tables tables', LawfulChange world footprint.closing tables tables' →
      Inv tables → Inv tables')
    (hmoves : Moves world footprint store store') (hinv : Inv store.projection) :
    Inv store'.projection :=
  Moves.session_related (fun tables tables' => Inv tables → Inv tables') hsame
    (fun _ _ _ hfirst hsecond hinv => hsecond (hfirst hinv)) hchange hmoves hinv

end Store

namespace Projection

variable {world : World} {closing : TurnId → Prop} {tables tables' : Projection}

/-- Keys and references of the Turns, effects and timeline entries. -/
structure Keyed (tables : Projection) : Prop where
  operations : Unique (fun row => row.operationId) tables.effects
  calls : Unique (fun row => (row.turnId, row.callId))
    (tables.effects.filter fun row => row.callId.isSome)
  turns : Unique (fun row => row.turn.id) tables.turns
  entries : Unique (fun row => row.entry.id) tables.sessionEntries
  owned : ∀ effect ∈ tables.effects, ∃ row ∈ tables.turns,
    row.turn.id = effect.turnId ∧ row.turn.sessionId = effect.sessionId

theorem keyed_empty : Projection.empty.Keyed := by
  constructor <;> simp [Projection.empty]

theorem Keyed.congr (hkeyed : tables.Keyed) (hentries : tables'.sessionEntries = tables.sessionEntries)
    (hturns : tables'.turns = tables.turns) (heffects : tables'.effects = tables.effects) :
    tables'.Keyed := by
  constructor
  · rw [heffects]; exact hkeyed.operations
  · rw [heffects]; exact hkeyed.calls
  · rw [hturns]; exact hkeyed.turns
  · rw [hentries]; exact hkeyed.entries
  · rw [heffects, hturns]; exact hkeyed.owned

/-- Replacing Turns and effects row by row keeps the keys as long as the key
columns stay. -/
theorem Keyed.update (changeTurn : TurnRow → TurnRow) (changeEffect : EffectRow → EffectRow)
    (matchedTurn : TurnRow → Bool) (matchedEffect : EffectRow → Bool)
    (hkeyed : tables.Keyed)
    (hturn : ∀ row, (changeTurn row).turn.id = row.turn.id ∧
      (changeTurn row).turn.sessionId = row.turn.sessionId)
    (heffect : ∀ row, (changeEffect row).operationId = row.operationId ∧
      (changeEffect row).turnId = row.turnId ∧ (changeEffect row).sessionId = row.sessionId ∧
      (changeEffect row).callId = row.callId) :
    Keyed { tables with
      turns := updateWhere matchedTurn changeTurn tables.turns
      effects := updateWhere matchedEffect changeEffect tables.effects } where
  operations := (unique_updateWhere fun row => (heffect row).1).mpr hkeyed.operations
  calls := by
    rw [filter_updateWhere fun row => by rw [(heffect row).2.2.2]]
    refine (unique_updateWhere fun row => ?_).mpr hkeyed.calls
    rw [(heffect row).2.1, (heffect row).2.2.2]
  turns := (unique_updateWhere fun row => (hturn row).1).mpr hkeyed.turns
  entries := hkeyed.entries
  owned := by
    intro effect heffect'
    obtain ⟨old, hold, heq⟩ := mem_updateWhere.mp heffect'
    obtain ⟨row, hrow, hid, hsession⟩ := hkeyed.owned old hold
    refine ⟨_, mem_updateWhere.mpr ⟨row, hrow, rfl⟩, ?_⟩
    have hkeys : effect.turnId = old.turnId ∧ effect.sessionId = old.sessionId := by
      rw [← heq]
      split
      · exact ⟨(heffect old).2.1, (heffect old).2.2.1⟩
      · exact ⟨rfl, rfl⟩
    rw [hkeys.1, hkeys.2, ← hid, ← hsession]
    split
    · exact hturn row
    · exact ⟨rfl, rfl⟩

theorem Keyed.updateTurns {change : TurnRow → TurnRow} {matched : TurnRow → Bool}
    (hkeyed : tables.Keyed)
    (hturn : ∀ row, (change row).turn.id = row.turn.id ∧
      (change row).turn.sessionId = row.turn.sessionId) :
    Keyed { tables with turns := updateWhere matched change tables.turns } := by
  have h := Keyed.update change id matched (fun _ => false) hkeyed hturn
    fun row => ⟨rfl, rfl, rfl, rfl⟩
  rwa [updateWhere_eq_self fun (_ : EffectRow) _ => rfl] at h

theorem Keyed.updateEffects {change : EffectRow → EffectRow} {matched : EffectRow → Bool}
    (hkeyed : tables.Keyed)
    (heffect : ∀ row, (change row).operationId = row.operationId ∧
      (change row).turnId = row.turnId ∧ (change row).sessionId = row.sessionId ∧
      (change row).callId = row.callId) :
    Keyed { tables with effects := updateWhere matched change tables.effects } := by
  have h := Keyed.update id change (fun _ => false) matched hkeyed (fun row => ⟨rfl, rfl⟩)
    heffect
  rwa [updateWhere_eq_self fun (_ : TurnRow) _ => rfl] at h

theorem Keyed.placed {sessionId : SessionId} {entryId : MessageId}
    {payload : SessionEntryPayload} {contextual : Bool} {key : Option String}
    {createdAt : DateTime} {entry : SessionEntry} (hkeyed : tables.Keyed)
    (hplaced : Placed tables sessionId entryId payload contextual key createdAt tables' entry) :
    tables'.Keyed where
  operations := by rw [hplaced.effects_eq]; exact hkeyed.operations
  calls := by rw [hplaced.effects_eq]; exact hkeyed.calls
  turns := by rw [hplaced.turns_eq]; exact hkeyed.turns
  entries := by
    rw [hplaced.tables_eq]
    exact unique_append_singleton.mpr ⟨hkeyed.entries, hplaced.admissible.1⟩
  owned := by rw [hplaced.effects_eq, hplaced.turns_eq]; exact hkeyed.owned

/-- The Turn an active check found. -/
theorem exists_of_isActiveTurn {sessionId : SessionId} {turnId : TurnId}
    (hactive : tables.isActiveTurn sessionId turnId = true) :
    ∃ row ∈ tables.turns, row.turn.id = turnId ∧ row.turn.sessionId = sessionId ∧
      row.turn.completedAt = none := by
  simpa [isActiveTurn] using hactive

theorem Keyed.schedule {event : JournalEntry} {sessionId : SessionId} {operationId : OperationId}
    {turnId : TurnId} {effect : EffectRequest} (hkeyed : tables.Keyed)
    (hactive : tables.isActiveTurn sessionId turnId = true)
    (hadmissible : tables.effectAdmissible
      (scheduledEffect event sessionId operationId turnId effect)) :
    Keyed { tables with
      effects := tables.effects ++
        [scheduledEffect event sessionId operationId turnId effect] } where
  operations := unique_append_singleton.mpr ⟨hkeyed.operations, hadmissible.1⟩
  calls := by
    rw [List.filter_append]
    cases hcall : (scheduledEffect event sessionId operationId turnId effect).callId with
    | none => simpa [hcall] using hkeyed.calls
    | some call =>
        rw [List.filter_cons_of_pos (by simp [hcall]), List.filter_nil]
        refine unique_append_singleton.mpr ⟨hkeyed.calls, ?_⟩
        intro other hother heq
        rw [Prod.mk.injEq] at heq
        exact hadmissible.2.1 call hcall other (List.mem_of_mem_filter hother) heq.1
          (heq.2.trans hcall)
  turns := hkeyed.turns
  entries := hkeyed.entries
  owned := by
    intro other hother
    rcases List.mem_append.mp hother with hother | hother
    · exact hkeyed.owned other hother
    · obtain rfl := List.mem_singleton.mp hother
      obtain ⟨row, hrow, hid, hsession, -⟩ := exists_of_isActiveTurn hactive
      exact ⟨row, hrow, hid, hsession⟩

theorem Keyed.accept {row : TurnRow} (hkeyed : tables.Keyed)
    (hadmissible : tables.turnAdmissible row) :
    Keyed { tables with turns := tables.turns ++ [row] } where
  operations := hkeyed.operations
  calls := hkeyed.calls
  turns := unique_append_singleton.mpr ⟨hkeyed.turns, hadmissible.1⟩
  entries := hkeyed.entries
  owned := by
    intro effect heffect
    obtain ⟨owner, howner, hids⟩ := hkeyed.owned effect heffect
    exact ⟨owner, List.mem_append_left _ howner, hids⟩

theorem Keyed.change (hkeyed : tables.Keyed)
    (hchange : Store.LawfulChange world closing tables tables') : tables'.Keyed := by
  obtain ⟨sessionId, event, delivery, -, hlawful, hchange⟩ := hchange
  cases hchange with
  | entryAppended _ _ _ _ _ _ _ _ hplaced => exact hkeyed.placed hplaced
  | turnAccepted _ _ _ _ _ _ _ _ _ hplaced hadmissible =>
      exact (hkeyed.placed hplaced).accept hadmissible
  | turnStarted _ _ _ _ _ _ hplaced =>
      refine Keyed.placed ?_ hplaced
      exact hkeyed.updateTurns fun row => ⟨rfl, rfl⟩
  | turnEnded _ _ _ _ _ _ _ _ _ hplaced =>
      refine Keyed.placed ?_ hplaced
      exact hkeyed.updateTurns fun row => ⟨rfl, rfl⟩
  | effectScheduled operationId turnId effect hpayload hadmissible =>
      rw [hpayload] at hlawful
      exact hkeyed.schedule hlawful hadmissible
  | effectStarted => exact hkeyed.updateEffects fun row => ⟨rfl, rfl, rfl, rfl⟩
  | effectEnded => exact hkeyed.updateEffects fun row => ⟨rfl, rfl, rfl, rfl⟩
  | _ => exact hkeyed.congr rfl rfl rfl

/-- A row of the effects is the only one with its operation. -/
theorem Keyed.effect_eq (hkeyed : tables.Keyed) {left right : EffectRow}
    (hleft : left ∈ tables.effects) (hright : right ∈ tables.effects)
    (hoperation : left.operationId = right.operationId) : left = right :=
  hkeyed.operations.eq_of_mem hleft hright hoperation

/-- A tool call has one effect in its Turn. -/
theorem Keyed.call_eq (hkeyed : tables.Keyed) {left right : EffectRow} {call : String}
    (hleft : left ∈ tables.effects) (hright : right ∈ tables.effects)
    (hturn : left.turnId = right.turnId) (hcall : left.callId = some call)
    (hcall' : right.callId = some call) : left = right := by
  refine hkeyed.calls.eq_of_mem (List.mem_filter.mpr ⟨hleft, by simp [hcall]⟩)
    (List.mem_filter.mpr ⟨hright, by simp [hcall']⟩) ?_
  rw [hturn, hcall, hcall']

end Projection

theorem Store.Moves.keyed {world : World} {footprint : Footprint} {store store' : Store}
    (hmoves : Store.Moves world footprint store store') (hkeyed : store.projection.Keyed) :
    store'.projection.Keyed :=
  Store.Moves.session_invariant Projection.Keyed
    (fun _ _ hsame hkeyed =>
      hkeyed.congr hsame.entries_eq hsame.turns_eq hsame.effects_eq)
    (fun _ _ hchange hkeyed => hkeyed.change hchange) hmoves hkeyed

end Mews
