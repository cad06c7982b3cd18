import Mews.Store.TurnRows

/-!
# What the end of a Turn decides

A Turn ends once.  The end is in its row, in the effects that it closed and in one entry of
the timeline, which also has the reason that the model stopped for.  No later entry of the
journal changes any of them.
-/

namespace Mews

open Protocol Table

/-- The entry tells that the Turn has ended. -/
def Protocol.SessionEntryPayload.ends (turnId : TurnId) : SessionEntryPayload → Bool
  | .turnCompleted other _ | .turnFailed other _ | .turnCancelled other => other = turnId
  | _ => false

/-- What has been decided of a Turn. -/
@[ext]
structure TurnOutcome where
  rows : List TurnRow
  effects : List EffectRow
  endings : List SessionEntryPayload

namespace Projection

variable {world : World} {closing : TurnId → Prop} {tables tables' : Projection} {turnId : TurnId}
  {sessionId : SessionId} {event : JournalEntry} {delivery : Option Delivery}

/-- The entries that tell the end of a Turn. -/
def endings (tables : Projection) (turnId : TurnId) : List SessionEntryPayload :=
  (tables.sessionEntries.map fun row => row.entry.payload).filter (·.ends turnId)

def outcome (tables : Projection) (turnId : TurnId) : TurnOutcome where
  rows := tables.turns.filter fun row => row.turn.id = turnId
  effects := tables.effects.filter fun row => row.turnId = turnId
  endings := tables.endings turnId

/-- The Turn has ended with this event, and with no other. -/
structure EndedBy (tables : Projection) (turnId : TurnId) (payload : JournalEvent) : Prop where
  ended : tables.TurnEnded turnId
  decided : ∃ status error entry, payload.turnEnd = some (turnId, status, error, entry) ∧
    tables.endings turnId = [entry] ∧
    ∀ row ∈ tables.turns, row.turn.id = turnId →
      row.turn.status = status ∧ row.turn.error = error

/-- A Turn that has not ended has no entry of its end. -/
def NoEarlyEnding (tables : Projection) : Prop :=
  ∀ turnId, ¬tables.TurnEnded turnId → tables.endings turnId = []

theorem outcome_congr (hentries : tables'.sessionEntries = tables.sessionEntries)
    (hturns : tables'.turns = tables.turns) (heffects : tables'.effects = tables.effects)
    (turnId : TurnId) : tables'.outcome turnId = tables.outcome turnId := by
  rw [outcome, outcome, endings, endings, hentries, hturns, heffects]

theorem Placed.endings_eq {entryId : MessageId} {payload : SessionEntryPayload}
    {contextual : Bool} {observationKey : Option String} {createdAt : DateTime}
    {entry : SessionEntry}
    (hplaced : Placed tables sessionId entryId payload contextual observationKey createdAt tables'
      entry) (turnId : TurnId) :
    tables'.endings turnId =
      tables.endings turnId ++ if payload.ends turnId then [payload] else [] := by
  rw [endings, hplaced.tables_eq, List.map_append, List.filter_append, endings, List.map_singleton,
    hplaced.payload_eq, List.filter_singleton, Bool.cond_eq_ite]

theorem ends_of_timelineEntry {payload : JournalEvent} {entryId : MessageId}
    {entry : SessionEntryPayload} {contextual : Bool}
    (hentry : payload.timelineEntry = some (entryId, entry, contextual)) (turnId : TurnId) :
    entry.ends turnId = false := by
  cases payload <;> cases hentry <;> rfl

theorem ends_of_turnEnd {payload : JournalEvent} {status : TurnStatus} {error : Option String}
    {entry : SessionEntryPayload} (hend : payload.turnEnd = some (turnId, status, error, entry))
    (other : TurnId) : entry.ends other = decide (turnId = other) := by
  cases payload <;> cases hend <;> rfl

/-! ## After the end -/

/-- A row of an active Turn is not one of a Turn that has ended. -/
theorem Keyed.ne_of_active (hkeyed : tables.Keyed) (hended : tables.TurnEnded turnId)
    {active : TurnId} (hactive : tables.isActiveTurn sessionId active = true) :
    active ≠ turnId := by
  rintro rfl
  obtain ⟨row, hrow, hid, hcompleted⟩ := hended
  exact hcompleted (hkeyed.active_of_isActiveTurn hactive hrow hid)

theorem rows_updateWhere {turns : List TurnRow} {matched : TurnRow → Bool}
    {change : TurnRow → TurnRow} (hid : ∀ row, (change row).turn.id = row.turn.id)
    (hother : ∀ row ∈ turns, row.turn.id = turnId → matched row = false) :
    (updateWhere matched change turns).filter (fun row => row.turn.id = turnId) =
      turns.filter fun row => row.turn.id = turnId := by
  rw [filter_updateWhere fun row => by rw [hid]]
  apply updateWhere_eq_self
  intro row hrow
  obtain ⟨hmem, hrowId⟩ := List.mem_filter.mp hrow
  exact hother row hmem (of_decide_eq_true hrowId)

theorem effects_updateWhere {effects : List EffectRow} {matched : EffectRow → Bool}
    {change : EffectRow → EffectRow} (hturn : ∀ row, (change row).turnId = row.turnId)
    (hother : ∀ row ∈ effects, row.turnId = turnId → matched row = false) :
    (updateWhere matched change effects).filter (fun row => row.turnId = turnId) =
      effects.filter fun row => row.turnId = turnId := by
  rw [filter_updateWhere fun row => by rw [hturn]]
  apply updateWhere_eq_self
  intro row hrow
  obtain ⟨hmem, hrowTurn⟩ := List.mem_filter.mp hrow
  exact hother row hmem (of_decide_eq_true hrowTurn)

theorem TurnEnded.noOpenEffects (hlifecycle : tables.Lifecycle)
    (hended : tables.TurnEnded turnId) : tables.NoOpenEffects turnId := by
  obtain ⟨row, hrow, rfl, hcompleted⟩ := hended
  exact hlifecycle.closed row hrow hcompleted

/-- The row that is changed is that of an active Turn. -/
theorem isActive_of_ended (hlifecycle : tables.Lifecycle) (hended : tables.TurnEnded turnId)
    {active : TurnId} {row : TurnRow} (hrow : row ∈ tables.turns) (hid : row.turn.id = turnId) :
    TurnRow.isActive active row = false := by
  obtain ⟨ended, hmem, hendedId, hcompleted⟩ := hended
  obtain rfl := hlifecycle.keyed.turns.eq_of_mem hrow hmem (hid.trans hendedId.symm)
  rw [TurnRow.isActive, decide_eq_false_iff_not]
  exact fun hactive => hcompleted hactive.2

/-- No entry of the journal changes what has been decided of a Turn that has ended. -/
theorem SessionChange.outcome_eq
    (hchange : SessionChange world tables sessionId event tables' delivery)
    (hlawful : Lawful closing tables sessionId event.payload) (hlifecycle : tables.Lifecycle)
    (hended : tables.TurnEnded turnId) : tables'.outcome turnId = tables.outcome turnId := by
  have hnone := hended.noOpenEffects hlifecycle
  cases hchange with
  | entryAppended entryId payload contextual entry _ _ hentry _ hplaced =>
      rw [outcome, outcome, hplaced.turns_eq, hplaced.effects_eq, hplaced.endings_eq,
        ends_of_timelineEntry hentry, if_neg Bool.false_ne_true, List.append_nil]
  | turnAccepted accepted agentRevision entryId content metadata source entry placed hpayload
      hplaced hadmissible =>
      obtain ⟨row, hrow, hid, -⟩ := hended
      have hother : accepted ≠ turnId := by
        rw [← hid]
        exact (hadmissible.1 row (by rwa [hplaced.turns_eq])).symm
      apply TurnOutcome.ext
      · change (placed.turns ++ [_]).filter _ = _
        rw [List.filter_append, hplaced.turns_eq, List.filter_singleton,
          show decide ((acceptedTurn event sessionId accepted agentRevision source).turn.id =
            turnId) = false from decide_eq_false hother]
        exact List.append_nil _
      · change placed.effects.filter _ = _
        rw [hplaced.effects_eq]
        rfl
      · exact (hplaced.endings_eq turnId).trans (List.append_nil _)
  | turnStarted started harness entry _ hpayload hactive hplaced =>
      have hother := hlifecycle.keyed.ne_of_active hended hactive
      apply TurnOutcome.ext
      · change tables'.turns.filter _ = _
        rw [hplaced.turns_eq]
        apply rows_updateWhere
        · exact fun _ => rfl
        · intro row _ hid
          rw [hid]
          exact decide_eq_false hother.symm
      · change tables'.effects.filter _ = _
        rw [hplaced.effects_eq]
        rfl
      · exact (hplaced.endings_eq turnId).trans (List.append_nil _)
  | turnEnded other status error payload entry _ sent hend hactive hplaced =>
      have hother := hlifecycle.keyed.ne_of_active hended (turnEnd_lawful hlawful hend).1
      apply TurnOutcome.ext
      · change tables'.turns.filter _ = _
        rw [hplaced.turns_eq]
        apply rows_updateWhere
        · exact fun _ => rfl
        · exact fun row hrow hid => isActive_of_ended hlifecycle hended hrow hid
      · change tables'.effects.filter _ = _
        rw [hplaced.effects_eq]
        rfl
      · refine (hplaced.endings_eq turnId).trans ?_
        rw [ends_of_turnEnd hend, decide_eq_false hother, if_neg Bool.false_ne_true]
        exact List.append_nil _
  | effectScheduled operationId scheduled effect hpayload =>
      rw [hpayload] at hlawful
      have hother := hlifecycle.keyed.ne_of_active hended hlawful
      apply TurnOutcome.ext
      · rfl
      · change (tables.effects ++ [_]).filter _ = _
        rw [List.filter_append, List.filter_singleton,
          show decide ((scheduledEffect event sessionId operationId scheduled effect).turnId =
            turnId) = false from decide_eq_false hother]
        exact List.append_nil _
      · rfl
  | effectStarted operationId =>
      apply TurnOutcome.ext
      · rfl
      · apply effects_updateWhere
        · exact fun _ => rfl
        · intro row hrow hturn
          rw [EffectRow.isScheduled, decide_eq_false_iff_not]
          intro hscheduled
          have hclosed := hnone row hrow hturn
          rw [hscheduled.2] at hclosed
          exact absurd hclosed (by decide)
      · rfl
  | effectEnded operationId _ status rawResult hend =>
      apply TurnOutcome.ext
      · rfl
      · apply effects_updateWhere
        · exact fun _ => rfl
        · intro row hrow hturn
          rw [EffectRow.isOpenOf, decide_eq_false_iff_not]
          intro hopen
          rw [hnone row hrow hturn] at hopen
          exact Bool.false_ne_true hopen.2.2.2
      · rfl
  | _ => rfl

/-! ## Before the end -/

/-- An entry of the journal that does not end the Turn leaves it without an ending, and the one
that ends it is the only one that does. -/
theorem SessionChange.endedBy
    (hchange : SessionChange world tables sessionId event tables' delivery)
    (hrunning : ¬tables.TurnEnded turnId) (hnone : tables.endings turnId = []) :
    tables'.EndedBy turnId event.payload ∨
      ¬tables'.TurnEnded turnId ∧ tables'.endings turnId = [] := by
  cases hchange with
  | entryAppended entryId payload contextual entry _ _ hentry _ hplaced =>
      right
      rw [TurnEnded, hplaced.turns_eq, hplaced.endings_eq, ends_of_timelineEntry hentry, hnone]
      exact ⟨hrunning, rfl⟩
  | turnAccepted accepted agentRevision entryId content metadata source entry placed hpayload
      hplaced hadmissible =>
      right
      constructor
      · rintro ⟨row, hrow, hid, hcompleted⟩
        rcases List.mem_append.mp hrow with hold | hnew
        · rw [hplaced.turns_eq] at hold
          exact hrunning ⟨row, hold, hid, hcompleted⟩
        · rw [List.mem_singleton.mp hnew] at hcompleted
          exact hcompleted rfl
      · refine (hplaced.endings_eq turnId).trans ?_
        rw [hnone]
        rfl
  | turnStarted started harness entry _ hpayload hactive hplaced =>
      right
      constructor
      · rintro ⟨row, hrow, hid, hcompleted⟩
        rw [hplaced.turns_eq] at hrow
        obtain ⟨old, hold, rfl⟩ := mem_updateWhere.mp hrow
        apply hrunning
        split_ifs at hid hcompleted
        · exact ⟨old, hold, hid, hcompleted⟩
        · exact ⟨old, hold, hid, hcompleted⟩
      · refine (hplaced.endings_eq turnId).trans ?_
        exact (List.append_nil _).trans hnone
  | turnEnded other status error payload entry _ sent hend hactive hplaced =>
      have hturns := hplaced.turns_eq
      have hendings := hplaced.endings_eq turnId
      rw [ends_of_turnEnd hend] at hendings
      by_cases hother : other = turnId
      · left
        subst hother
        constructor
        · obtain ⟨row, hrow, hmatched⟩ := List.countP_pos_iff.mp (by rw [hactive]; exact one_pos)
          refine ⟨TurnRow.ended status error event.recordedAt row, ?_, (of_decide_eq_true hmatched).1,
            by simp [TurnRow.ended]⟩
          rw [hturns]
          exact mem_updateWhere.mpr ⟨row, hrow, by rw [if_pos hmatched]⟩
        · refine ⟨status, error, payload, hend, ?_, ?_⟩
          · rw [hendings]
            exact (congrArg (· ++ _) hnone).trans (by simp)
          · intro row hrow hid
            rw [hturns] at hrow
            obtain ⟨old, hold, rfl⟩ := mem_updateWhere.mp hrow
            by_cases hmatched : TurnRow.isActive other old = true
            · rw [if_pos hmatched]
              exact ⟨rfl, rfl⟩
            · rw [if_neg hmatched] at hid
              have hcompleted : old.turn.completedAt ≠ none := by
                intro hactive
                exact hmatched (decide_eq_true ⟨hid, hactive⟩)
              exact absurd ⟨old, hold, hid, hcompleted⟩ hrunning
      · right
        constructor
        · rintro ⟨row, hrow, hid, hcompleted⟩
          rw [hturns] at hrow
          obtain ⟨old, hold, rfl⟩ := mem_updateWhere.mp hrow
          split_ifs at hid hcompleted with hmatched
          · exact hother ((of_decide_eq_true hmatched).1.symm.trans hid)
          · exact hrunning ⟨old, hold, hid, hcompleted⟩
        · rw [hendings, decide_eq_false hother]
          exact (List.append_nil _).trans hnone
  | _ => exact .inr ⟨hrunning, hnone⟩

theorem noEarlyEnding_empty : Projection.empty.NoEarlyEnding := fun _ _ => rfl

theorem EndedBy.congr {payload : JournalEvent} (hended : tables.EndedBy turnId payload)
    (houtcome : tables'.outcome turnId = tables.outcome turnId)
    (hlater : tables'.TurnEnded turnId) : tables'.EndedBy turnId payload := by
  obtain ⟨status, error, entry, hend, hendings, hrows⟩ := hended.decided
  refine ⟨hlater, status, error, entry, hend, ?_, ?_⟩
  · exact (congrArg TurnOutcome.endings houtcome).trans hendings
  · intro row hrow hid
    have hmem : row ∈ (tables'.outcome turnId).rows :=
      List.mem_filter.mpr ⟨hrow, decide_eq_true hid⟩
    rw [houtcome] at hmem
    exact hrows row (List.mem_filter.mp hmem).1 hid

end Projection

namespace Store

open Projection

variable {world : World} {footprint : Footprint} {store store' : Store} {turnId : TurnId}

/-- What has been decided of a Turn that has ended stays. -/
theorem Moves.outcome_eq (hmoves : Moves world footprint store store')
    (hlifecycle : store.projection.Lifecycle) (hended : store.projection.TurnEnded turnId) :
    store'.projection.outcome turnId = store.projection.outcome turnId := by
  induction hmoves with
  | refl => rfl
  | @tail middle store' hmoves hmove ih =>
      have hmiddle := Moves.lifecycle hmoves hlifecycle
      have hstill := hended.advances (Moves.advances hmoves hlifecycle.keyed)
      rcases hmove.session_tables with hsame | ⟨_, _, _, -, -, hlawful, -, hchange⟩
      · exact (outcome_congr hsame.entries_eq hsame.turns_eq hsame.effects_eq turnId).trans ih
      · exact (hchange.outcome_eq hlawful hmiddle hstill).trans ih

/-- A Turn that ends has been ended by an event that the command records. -/
theorem Moves.endedBy (hmoves : Moves world footprint store store')
    (hlifecycle : store.projection.Lifecycle) (hrunning : ¬store.projection.TurnEnded turnId)
    (hnone : store.projection.endings turnId = []) :
    (∃ payload, footprint.produces payload ∧ store'.projection.EndedBy turnId payload) ∨
      ¬store'.projection.TurnEnded turnId ∧ store'.projection.endings turnId = [] := by
  induction hmoves with
  | refl => exact .inr ⟨hrunning, hnone⟩
  | @tail middle store' hmoves hmove ih =>
      have hmiddle := Moves.lifecycle hmoves hlifecycle
      have hlast : Moves world footprint middle store' := .single hmove
      rcases ih with ⟨payload, hproduces, hended⟩ | ⟨hrunning, hnone⟩
      · left
        refine ⟨payload, hproduces, hended.congr (hlast.outcome_eq hmiddle hended.ended) ?_⟩
        exact hended.ended.advances (hlast.advances hmiddle.keyed)
      · rcases hmove.session_tables with hsame | ⟨_, event, _, -, -, -, hproduces, hchange⟩
        · right
          rw [TurnEnded, endings, hsame.turns_eq, hsame.entries_eq]
          exact ⟨hrunning, hnone⟩
        · rcases hchange.endedBy hrunning hnone with hended | hlater
          · exact .inl ⟨event.payload, hproduces, hended⟩
          · exact .inr hlater

theorem Moves.noEarlyEnding (hmoves : Moves world footprint store store')
    (hlifecycle : store.projection.Lifecycle) (hnone : store.projection.NoEarlyEnding) :
    store'.projection.NoEarlyEnding := by
  intro turnId hrunning
  have hbefore : ¬store.projection.TurnEnded turnId :=
    fun hended => hrunning (hended.advances (hmoves.advances hlifecycle.keyed))
  rcases hmoves.endedBy hlifecycle hbefore (hnone turnId hbefore) with ⟨_, _, hended⟩ | hlater
  · exact absurd hended.ended hrunning
  · exact hlater.2

theorem run_noEarlyEnding (world : World) (ops : List StoreOp) :
    (run world ops).projection.NoEarlyEnding := by
  have hboth := run_invariant world
    (fun store => store.projection.Lifecycle ∧ store.projection.NoEarlyEnding)
    ⟨lifecycle_empty, noEarlyEnding_empty⟩ (fun store op hstore => by
      have hmoves := step_moves world hstore.1.keyed op
      exact ⟨hmoves.lifecycle hstore.1, hmoves.noEarlyEnding hstore.1 hstore.2⟩) ops
  exact hboth.2

end Store

end Mews
