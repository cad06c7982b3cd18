import Mews.Store.Keys

/-!
# Closing a Turn

What `closeOpenEffects` and `closeOrphanToolCalls` do as wholes: which effects
end in which status, and which results the timeline gains.
-/

namespace Mews

open Protocol Table Tx

theorem filterMap_append_singleton {A B : Type} (f : A → Option B) (items : List A) (item : A) :
    (items ++ [item]).filterMap f = items.filterMap f ++ (f item).toList := by
  rw [List.filterMap_append]
  cases h : f item <;> simp [h]

namespace Projection

variable {world : World} {tables tables' : Projection} {event : JournalEntry}
  {sessionId : SessionId} {delivery : Option Delivery}

section Families

attribute [local simp] JournalEvent.effectEnd JournalEvent.timelineEntry JournalEvent.turnEnd
  JournalEvent.subjectType

/-- The families of Session payloads are disjoint. -/
theorem timelineEntry_eq_none_of_effectEnd {payload : JournalEvent} (hend : payload.effectEnd ≠ none) :
    payload.timelineEntry = none ∧ payload.turnEnd = none ∧ payload.subjectType = .session := by
  cases payload <;> simp_all [JournalEvent.effectEnd, JournalEvent.timelineEntry,
    JournalEvent.turnEnd, JournalEvent.subjectType]

theorem timelineEntry_eq_none_of_turnEnd {payload : JournalEvent} (hend : payload.turnEnd ≠ none) :
    payload.timelineEntry = none ∧ payload.effectEnd = none ∧ payload.subjectType = .session := by
  cases payload <;> simp_all [JournalEvent.effectEnd, JournalEvent.timelineEntry,
    JournalEvent.turnEnd, JournalEvent.subjectType]

theorem subjectType_of_timelineEntry {payload : JournalEvent}
    (hentry : payload.timelineEntry ≠ none) : payload.subjectType = .session := by
  cases payload <;> simp_all [JournalEvent.timelineEntry, JournalEvent.subjectType]

end Families

theorem SessionChange.of_effectEnd
    (hchange : SessionChange world tables sessionId event tables' delivery)
    {operationId : OperationId} {turnId : TurnId} {status : EffectStatus}
    {rawResult : Option ToolResult}
    (hend : event.payload.effectEnd = some (operationId, turnId, status, rawResult)) :
    tables.effects.countP (EffectRow.isOpenOf sessionId turnId operationId) = 1 ∧
    tables' = { tables with
      effects := updateWhere (EffectRow.isOpenOf sessionId turnId operationId)
        (EffectRow.ended status rawResult event) tables.effects } := by
  have hsome : event.payload.effectEnd ≠ none := by simp [hend]
  obtain ⟨hno, hno', hsubject⟩ := timelineEntry_eq_none_of_effectEnd hsome
  cases hchange with
  | effectEnded operationId' turnId' status' rawResult' hend' hopen =>
      rw [hend] at hend'
      cases hend'
      exact ⟨hopen, rfl⟩
  | entryAppended _ _ _ _ _ _ hentry => simp [hno] at hentry
  | turnEnded _ _ _ _ _ _ _ hend' => simp [hno'] at hend'
  | ignored hpayload => exact absurd hsubject hpayload
  | bindingsChanged _ hpayload =>
      rcases hpayload with ⟨_, h⟩ | ⟨_, _, _, _, _, h⟩ <;> simp [h, JournalEvent.effectEnd] at hend
  | _ => simp_all [JournalEvent.effectEnd]

theorem SessionChange.of_timelineEntry
    (hchange : SessionChange world tables sessionId event tables' delivery)
    {entryId : MessageId} {payload : SessionEntryPayload} {contextual : Bool}
    (hentry : event.payload.timelineEntry = some (entryId, payload, contextual)) :
    ∃ entry, Placed tables sessionId entryId payload contextual
      (observationKeyOf event payload) event.recordedAt tables' entry := by
  have hsome : event.payload.timelineEntry ≠ none := by simp [hentry]
  have hsubject := subjectType_of_timelineEntry hsome
  cases hchange with
  | entryAppended _ _ _ entry _ _ hentry' _ hplaced =>
      rw [hentry] at hentry'
      cases hentry'
      exact ⟨entry, hplaced⟩
  | effectEnded _ _ _ _ hend =>
      exact absurd (timelineEntry_eq_none_of_effectEnd (by simp [hend])).1 hsome
  | turnEnded _ _ _ _ _ _ _ hend =>
      exact absurd (timelineEntry_eq_none_of_turnEnd (by simp [hend])).1 hsome
  | ignored hpayload => exact absurd hsubject hpayload
  | bindingsChanged _ hpayload =>
      rcases hpayload with ⟨_, h⟩ | ⟨_, _, _, _, _, h⟩ <;>
        simp [h, JournalEvent.timelineEntry] at hentry
  | _ => simp_all [JournalEvent.timelineEntry]

theorem SessionChange.of_effectScheduled
    (hchange : SessionChange world tables sessionId event tables' delivery)
    {operationId : OperationId} {turnId : TurnId} {effect : EffectRequest}
    (hpayload : event.payload = .effectScheduled operationId turnId effect) :
    tables.effectAdmissible (scheduledEffect event sessionId operationId turnId effect) ∧
    tables' = { tables with
      effects := tables.effects ++ [scheduledEffect event sessionId operationId turnId effect] } := by
  cases hchange with
  | effectScheduled operationId' turnId' effect' hpayload' hadmissible =>
      rw [hpayload] at hpayload'
      cases hpayload'
      exact ⟨hadmissible, rfl⟩
  | ignored hno => simp [hpayload, JournalEvent.subjectType] at hno
  | _ => simp_all [JournalEvent.timelineEntry, JournalEvent.turnEnd, JournalEvent.effectEnd]

theorem SessionChange.of_turnAccepted
    (hchange : SessionChange world tables sessionId event tables' delivery)
    {turnId : TurnId} {agentRevision : Nat} {entryId : MessageId} {content : MessageContent}
    {metadata : Value} {source : MessageSource}
    (hpayload : event.payload =
      .turnAccepted turnId agentRevision entryId content metadata source) :
    ∃ placed entry, Placed tables sessionId entryId (.userMessage content metadata source) true
        none event.recordedAt placed entry ∧
      placed.turnAdmissible (acceptedTurn event sessionId turnId agentRevision source) ∧
      tables' = { placed with
        turns := placed.turns ++ [acceptedTurn event sessionId turnId agentRevision source] } ∧
      delivery = none := by
  cases hchange with
  | turnAccepted _ _ _ _ _ _ entry placed hpayload' hplaced hadmissible =>
      rw [hpayload] at hpayload'
      cases hpayload'
      exact ⟨placed, entry, hplaced, hadmissible, rfl, rfl⟩
  | ignored hno => simp [hpayload, JournalEvent.subjectType] at hno
  | _ => simp_all [JournalEvent.timelineEntry, JournalEvent.turnEnd, JournalEvent.effectEnd]

theorem SessionChange.of_turnEnd
    (hchange : SessionChange world tables sessionId event tables' delivery)
    {turnId : TurnId} {status : TurnStatus} {error : Option String}
    {payload : SessionEntryPayload}
    (hend : event.payload.turnEnd = some (turnId, status, error, payload)) :
    ∃ entry, tables.turns.countP (TurnRow.isActive turnId) = 1 ∧
      Placed
        { tables with
          turns := updateWhere (TurnRow.isActive turnId)
            (TurnRow.ended status error event.recordedAt) tables.turns }
        sessionId (messageIdForEvent event.id) payload false none event.recordedAt tables'
        entry := by
  have hsome : event.payload.turnEnd ≠ none := by simp [hend]
  obtain ⟨hno, hno', hsubject⟩ := timelineEntry_eq_none_of_turnEnd hsome
  cases hchange with
  | turnEnded turnId' status' error' payload' entry _ _ hend' hactive hplaced =>
      rw [hend] at hend'
      cases hend'
      exact ⟨entry, hactive, hplaced⟩
  | entryAppended _ _ _ _ _ _ hentry => simp [hno] at hentry
  | effectEnded _ _ _ _ hend' => simp [hno'] at hend'
  | ignored hpayload => exact absurd hsubject hpayload
  | bindingsChanged _ hpayload =>
      rcases hpayload with ⟨_, h⟩ | ⟨_, _, _, _, _, h⟩ <;> simp [h, JournalEvent.turnEnd] at hend
  | _ => simp_all [JournalEvent.turnEnd]

/-- The payloads that write the Turns. -/
def writesTurns : JournalEvent → Bool
  | .turnAccepted .. | .turnStarted .. | .turnCompleted .. | .turnFailed .. | .turnCancelled ..
  | .turnInterrupted .. => true
  | _ => false

theorem SessionChange.turns_eq
    (hchange : SessionChange world tables sessionId event tables' delivery)
    (hwrites : writesTurns event.payload = false) : tables'.turns = tables.turns := by
  cases hchange with
  | entryAppended _ _ _ _ _ _ _ _ hplaced => exact hplaced.turns_eq
  | turnAccepted _ _ _ _ _ _ _ _ hpayload => simp [hpayload, writesTurns] at hwrites
  | turnStarted _ _ _ _ hpayload => simp [hpayload, writesTurns] at hwrites
  | turnEnded _ _ _ _ _ _ _ hend =>
      cases hpayload : event.payload <;> simp_all [writesTurns, JournalEvent.turnEnd]
  | _ => rfl

/-! ## The effect rows and results a closing leaves -/

/-- The status a Turn's end gives an open effect. -/
def closingStatus (row : EffectRow) : EffectStatus :=
  if row.status = .started then .uncertain else .failed

@[simp] theorem isOpen_closingStatus (row : EffectRow) : (closingStatus row).isOpen = false := by
  by_cases hstarted : row.status = .started <;> simp [closingStatus, hstarted, EffectStatus.isOpen]

/-- The result a closed effect leaves for its tool call. -/
def closedResult (row : EffectRow) : Option ToolResult :=
  match row.callId, row.tool with
  | some callId, some tool => some (terminatedResult callId tool (row.status = .started))
  | _, _ => none

/-- The result an unanswered call gets from the tables the closing has reached. -/
def orphanResult (sessionId : SessionId) (turnId : TurnId) (call : ToolCall) :
    Option ToolResult :=
  if (tables.recordedResults sessionId turnId).any fun result => result.callId = call.callId then
    none
  else
    match tables.rawCompletion sessionId turnId call.callId with
    | some raw => some (interruptedResult raw)
    | none => some (terminatedResult call.callId call.tool false)

/-- The effects in `closed` have ended and the timeline of the Session has
gained `results`; nothing else of the Turn has changed. -/
structure Closes (tables : Projection) (sessionId : SessionId) (turnId : TurnId)
    (closed : List EffectRow) (results : List ToolResult) (tables' : Projection) : Prop where
  turns_eq : tables'.turns = tables.turns
  effects : ∃ close : EffectRow → EffectRow, tables'.effects = tables.effects.map close ∧
    ∀ row ∈ tables.effects,
      (row ∈ closed → ∃ event, close row = row.ended (closingStatus row) none event) ∧
      (row ∉ closed → close row = row)
  timeline : ∃ rows, tables'.timeline sessionId = tables.timeline sessionId ++ rows ∧
    rows.map (·.entry.payload) = results.map (.toolResult turnId)
  others : ∀ other, other ≠ sessionId → tables'.timeline other = tables.timeline other

theorem mem_openEffects {turnId : TurnId} {row : EffectRow} :
    row ∈ tables.openEffects turnId ↔
      row ∈ tables.effects ∧ row.turnId = turnId ∧ row.status.isOpen = true := by
  simp [openEffects, List.mem_insertionSort]

theorem nodup_openEffects {turnId : TurnId} (hkeyed : tables.Keyed) :
    (tables.openEffects turnId).Nodup :=
  (List.perm_insertionSort _ _).nodup_iff.mpr (hkeyed.operations.nodup.filter _)

/-- The open effects of an active Turn belong to its Session. -/
theorem Keyed.session_of_openEffects {turnId : TurnId} (hkeyed : tables.Keyed)
    (hactive : tables.isActiveTurn sessionId turnId = true) {row : EffectRow}
    (hrow : row ∈ tables.openEffects turnId) : row.sessionId = sessionId := by
  obtain ⟨hmem, hturn, -⟩ := mem_openEffects.mp hrow
  obtain ⟨owner, howner, hid, hsession⟩ := hkeyed.owned row hmem
  obtain ⟨active, hactive, hid', hsession', -⟩ := exists_of_isActiveTurn hactive
  have hsame : owner = active :=
    hkeyed.turns.eq_of_mem howner hactive (by rw [hid, hturn, hid'])
  rw [← hsession, hsame, hsession']

theorem isActiveTurn_congr {turnId : TurnId} (hturns : tables'.turns = tables.turns) :
    tables'.isActiveTurn sessionId turnId = tables.isActiveTurn sessionId turnId := by
  rw [isActiveTurn, hturns, isActiveTurn]

section Closes

variable {turnId : TurnId} {closed : List EffectRow} {results : List ToolResult}

theorem Closes.refl : Closes tables sessionId turnId [] [] tables where
  turns_eq := rfl
  effects := ⟨id, by simp, by simp⟩
  timeline := ⟨[], by simp, rfl⟩
  others := fun _ _ => rfl

/-- A result recorded after a closing extends it. -/
theorem Closes.answer {result : ToolResult} {entryId : MessageId} {key : Option String}
    {createdAt : DateTime} {entry : SessionEntry} {tables'' : Projection}
    (hcloses : Closes tables sessionId turnId closed results tables')
    (hplaced : Placed tables' sessionId entryId (.toolResult turnId result) true key createdAt
      tables'' entry) :
    Closes tables sessionId turnId closed (results ++ [result]) tables'' where
  turns_eq := by rw [hplaced.turns_eq, hcloses.turns_eq]
  effects := by rw [hplaced.effects_eq]; exact hcloses.effects
  timeline := by
    obtain ⟨rows, htimeline, hrows⟩ := hcloses.timeline
    refine ⟨rows ++ [⟨entry, true, key⟩], ?_, ?_⟩
    · rw [hplaced.timeline_eq, htimeline]
      simp
    · simp [hrows, hplaced.payload_eq]
  others := by
    intro other hother
    rw [hplaced.timeline_eq, hcloses.others other hother]
    simp [hother]

/-- Ending one more open effect extends a closing. -/
theorem Closes.close {row : EffectRow} (hkeyed : tables.Keyed)
    (hcloses : Closes tables sessionId turnId closed results tables')
    (hrow : row ∈ tables.effects) (hnew : row ∉ closed) (hsession : row.sessionId = sessionId) (hturn : row.turnId = turnId)
    (hopen : row.status.isOpen = true) (event : JournalEntry) :
    Closes tables sessionId turnId (closed ++ [row]) results
      { tables' with
        effects := updateWhere (EffectRow.isOpenOf sessionId turnId row.operationId)
          (EffectRow.ended (closingStatus row) none event) tables'.effects } where
  turns_eq := hcloses.turns_eq
  timeline := hcloses.timeline
  others := hcloses.others
  effects := by
    obtain ⟨close, heffects, hclose⟩ := hcloses.effects
    refine ⟨fun other =>
      if EffectRow.isOpenOf sessionId turnId row.operationId (close other) then
        (close other).ended (closingStatus row) none event else close other, ?_, ?_⟩
    · simp [updateWhere, heffects, Function.comp_def]
    · intro other hother
      obtain ⟨hin, hout⟩ := hclose other hother
      beta_reduce
      by_cases hother' : other ∈ closed
      · -- An effect closed earlier is no longer open.
        obtain ⟨earlier, heq⟩ := hin hother'
        have hended : EffectRow.isOpenOf sessionId turnId row.operationId (close other) = false := by
          simp [heq, EffectRow.isOpenOf, EffectRow.ended]
        simp only [hended, Bool.false_eq_true, if_false]
        exact ⟨fun _ => ⟨earlier, heq⟩, fun hnot => absurd (List.mem_append_left _ hother') hnot⟩
      · rw [hout hother']
        by_cases hsame : other = row
        · subst hsame
          have hmatched : EffectRow.isOpenOf sessionId turnId other.operationId other = true := by
            simp [EffectRow.isOpenOf, hsession, hturn, hopen]
          simp only [hmatched, if_true]
          exact ⟨fun _ => ⟨event, rfl⟩, fun hnot => absurd (by simp) hnot⟩
        · have hid : other.operationId ≠ row.operationId := fun heq =>
            hsame (hkeyed.operations.eq_of_mem hother hrow heq)
          have hunmatched : EffectRow.isOpenOf sessionId turnId row.operationId other = false := by
            simp [EffectRow.isOpenOf, hid]
          simp only [hunmatched, Bool.false_eq_true, if_false]
          refine ⟨fun hmem => ?_, fun _ => trivial⟩
          rcases List.mem_append.mp hmem with hmem | hmem
          · exact absurd hmem hother'
          · exact absurd (List.mem_singleton.mp hmem) hsame

/-- Effects that are not closed yet still stand in the tables. -/
theorem Closes.mem_effects {row : EffectRow}
    (hcloses : Closes tables sessionId turnId closed results tables')
    (hrow : row ∈ tables.effects) (hnew : row ∉ closed) : row ∈ tables'.effects := by
  obtain ⟨close, heffects, hclose⟩ := hcloses.effects
  rw [heffects, ← (hclose row hrow).2 hnew]
  exact List.mem_map_of_mem hrow

/-- Once every open effect of a Turn is closed, none is left. -/
theorem Closes.noOpenEffects
    (hcloses : Closes tables sessionId turnId (tables.openEffects turnId) results tables') :
    tables'.NoOpenEffects turnId := by
  obtain ⟨close, heffects, hclose⟩ := hcloses.effects
  intro row' hrow' hturn
  rw [heffects] at hrow'
  obtain ⟨row, hrow, rfl⟩ := List.mem_map.mp hrow'
  obtain ⟨hin, hout⟩ := hclose row hrow
  by_cases hopen : row ∈ tables.openEffects turnId
  · obtain ⟨event, heq⟩ := hin hopen
    simp [heq, EffectRow.ended]
  · rw [hout hopen] at hturn ⊢
    by_contra hstatus
    exact hopen (mem_openEffects.mpr ⟨hrow, hturn, by simpa using hstatus⟩)

theorem Closes.noOpenEffects_of
    (hcloses : Closes tables sessionId turnId [] results tables')
    (hnone : tables.NoOpenEffects turnId) : tables'.NoOpenEffects turnId := by
  obtain ⟨close, heffects, hclose⟩ := hcloses.effects
  intro row' hrow' hturn
  rw [heffects] at hrow'
  obtain ⟨row, hrow, rfl⟩ := List.mem_map.mp hrow'
  rw [(hclose row hrow).2 (by simp)] at hturn ⊢
  exact hnone row hrow hturn

/-- The open effects of the Turn are closed first, then its unanswered calls. -/
def ClosedTurn (tables : Projection) (sessionId : SessionId) (turnId : TurnId)
    (tables' : Projection) : Prop :=
  ∃ middle, tables.Closes sessionId turnId (tables.openEffects turnId)
      ((tables.openEffects turnId).filterMap closedResult) middle ∧
    middle.Closes sessionId turnId []
      ((middle.requestedCalls sessionId turnId).filterMap
        (middle.orphanResult sessionId turnId)) tables'

theorem ClosedTurn.turns_eq (hclosed : tables.ClosedTurn sessionId turnId tables') : tables'.turns = tables.turns := by
  obtain ⟨middle, hfirst, hsecond⟩ := hclosed
  rw [hsecond.turns_eq, hfirst.turns_eq]

theorem ClosedTurn.noOpenEffects (hclosed : tables.ClosedTurn sessionId turnId tables') : tables'.NoOpenEffects turnId := by
  obtain ⟨middle, hfirst, hsecond⟩ := hclosed
  exact hsecond.noOpenEffects_of hfirst.noOpenEffects

end Closes

end Projection

namespace Store

variable {world : World} {footprint : Footprint} {store : Store} {sessionId : SessionId}
  {turnId : TurnId}

theorem Recorded.change {payload : JournalEvent} {correlationId : Option String}
    {event : JournalEntry} {store' : Store}
    (hrecorded : Recorded world footprint store sessionId payload correlationId event store') :
    ∃ delivery, Projection.SessionChange world store.projection sessionId event
      store'.projection delivery := by
  obtain ⟨delivery, hproject⟩ := hrecorded.projects
  exact ⟨delivery, Projection.projectSession_change hrecorded.subject_eq hproject⟩

/-- The events a command may use to close a Turn. -/
structure Closable (footprint : Footprint) (turnId : TurnId) : Prop where
  closing : footprint.closing turnId
  results : ∀ entryId result, footprint.produces (.toolResultRecorded turnId entryId result)
  effects : ∀ row, footprint.produces (closingEvent turnId row)

/-- A chain of moves closes the Turn in the tables. -/
structure ClosesTo (world : World) (footprint : Footprint) (sessionId : SessionId)
    (turnId : TurnId) (store : Store) (tables : Projection) (closed : List EffectRow)
    (results : List ToolResult) (store' : Store) : Prop where
  moves : Moves world footprint store store'
  closes : tables.Closes sessionId turnId closed results store'.projection

theorem ensures_recordToolResult {result : ToolResult} {tables : Projection} {start : Store}
    {closed : List EffectRow} {results : List ToolResult}
    (hclosable : Closable footprint turnId)
    (hactive : tables.isActiveTurn sessionId turnId = true)
    (hcloses : ClosesTo world footprint sessionId turnId start tables closed results store) :
    ensures (recordToolResult world sessionId turnId result) store fun _ store' =>
      ClosesTo world footprint sessionId turnId start tables closed (results ++ [result])
        store' := by
  simp only [recordToolResult, ensures_bind, ensures_newId, ensures_pure]
  have hactive' : store.projection.isActiveTurn sessionId turnId = true := by
    rw [Projection.isActiveTurn_congr hcloses.closes.turns_eq, hactive]
  have hlawful : ∀ entryId, Lawful footprint.closing store.projection sessionId
      (.toolResultRecorded turnId entryId result) := fun _ => hactive'
  refine ensures_mono (ensures_appendSessionEvent (hlawful _) (hclosable.results _ _)) ?_
  intro event store' hrecorded
  obtain ⟨delivery, hchange⟩ := hrecorded.change
  obtain ⟨entry, hplaced⟩ := hchange.of_timelineEntry (by rw [hrecorded.payload_eq]; rfl)
  exact
    { moves := hcloses.moves.trans (.trans (.single (.drew store _)) hrecorded.moves)
      closes := hcloses.closes.answer hplaced }

theorem ensures_closeOpenEffect {row : EffectRow} {tables : Projection} {start : Store}
    {closed : List EffectRow} {results : List ToolResult}
    (hclosable : Closable footprint turnId) (hkeyed : tables.Keyed)
    (hactive : tables.isActiveTurn sessionId turnId = true)
    (hrow : row ∈ tables.openEffects turnId) (hnew : row ∉ closed)
    (hsession : row.sessionId = sessionId)
    (hcloses : ClosesTo world footprint sessionId turnId start tables closed results store) :
    ensures (closeOpenEffect world sessionId turnId row) store fun _ store' =>
      ClosesTo world footprint sessionId turnId start tables (closed ++ [row])
        (results ++ (Projection.closedResult row).toList) store' := by
  obtain ⟨hmem, hturn, hopen⟩ := Projection.mem_openEffects.mp hrow
  have hactive' : store.projection.isActiveTurn sessionId turnId = true := by
    rw [Projection.isActiveTurn_congr hcloses.closes.turns_eq, hactive]
  have hmem' := hcloses.closes.mem_effects hmem hnew
  have howns : ∀ status, row.status = status →
      ownsEffect sessionId turnId row.operationId status store.projection = true := by
    intro status hstatus
    simp only [ownsEffect, List.any_eq_true, decide_eq_true_eq]
    exact ⟨row, hmem', rfl, hsession, hturn, hstatus⟩
  have hlawful : Lawful footprint.closing store.projection sessionId (closingEvent turnId row) := by
    by_cases hstarted : row.status = .started
    · simp only [closingEvent, hstarted, if_true, Lawful]
      exact ⟨hactive', howns _ hstarted⟩
    · have hscheduled : row.status = .scheduled := by
        cases hstatus : row.status <;> simp_all [EffectStatus.isOpen]
      simp only [closingEvent, hstarted, if_false, Lawful]
      exact ⟨hactive', .inr ⟨hclosable.closing, howns _ hscheduled⟩⟩
  have hend : (closingEvent turnId row).effectEnd =
      some (row.operationId, turnId, Projection.closingStatus row, none) := by
    by_cases hstarted : row.status = .started <;>
      simp [closingEvent, hstarted, JournalEvent.effectEnd, Projection.closingStatus]
  simp only [closeOpenEffect, ensures_bind]
  refine ensures_mono (ensures_appendSessionEvent hlawful (hclosable.effects row)) ?_
  intro event store' hrecorded
  obtain ⟨delivery, hchange⟩ := hrecorded.change
  obtain ⟨-, htables⟩ := hchange.of_effectEnd (by rw [hrecorded.payload_eq]; exact hend)
  have hcloses' : ClosesTo world footprint sessionId turnId start tables (closed ++ [row])
      results store' :=
    { moves := hcloses.moves.trans hrecorded.moves
      closes := by
        rw [htables]
        exact hcloses.closes.close hkeyed hmem hnew hsession hturn hopen event }
  cases hcall : row.callId with
  | none => simpa [Projection.closedResult, hcall] using hcloses'
  | some callId =>
      cases htool : row.tool with
      | none => simpa [Projection.closedResult, hcall, htool] using hcloses'
      | some tool =>
          simp only [Projection.closedResult, hcall, htool, Option.toList_some]
          exact ensures_recordToolResult hclosable hactive hcloses'

theorem ensures_closeOpenEffects (hclosable : Closable footprint turnId)
    (hkeyed : store.projection.Keyed)
    (hactive : store.projection.isActiveTurn sessionId turnId = true) :
    ensures (closeOpenEffects world sessionId turnId) store fun _ store' =>
      ClosesTo world footprint sessionId turnId store store.projection
        (store.projection.openEffects turnId)
        ((store.projection.openEffects turnId).filterMap Projection.closedResult) store' := by
  simp only [closeOpenEffects, ensures_bind, ensures_select]
  refine ensures_mono (ensures_each (fun done store' =>
    ClosesTo world footprint sessionId turnId store store.projection done
      (done.filterMap Projection.closedResult) store') ⟨.refl, .refl⟩ ?_) fun _ _ h => h
  intro done row rest store' hitems hcloses
  have hrow : row ∈ store.projection.openEffects turnId := by simp [hitems]
  have hnew : row ∉ done := by
    have hnodup : (store.projection.openEffects turnId).Nodup :=
      Projection.nodup_openEffects hkeyed
    rw [hitems] at hnodup
    exact fun hmem => (List.nodup_append.mp hnodup).2.2 row hmem row (by simp) rfl
  rw [filterMap_append_singleton]
  exact ensures_closeOpenEffect hclosable hkeyed hactive hrow hnew
    (hkeyed.session_of_openEffects hactive hrow) hcloses

theorem ensures_closeOrphanToolCalls (hclosable : Closable footprint turnId)
    (hactive : store.projection.isActiveTurn sessionId turnId = true) :
    ensures (closeOrphanToolCalls world sessionId turnId) store fun _ store' =>
      ClosesTo world footprint sessionId turnId store store.projection []
        ((store.projection.requestedCalls sessionId turnId).filterMap
          (store.projection.orphanResult sessionId turnId)) store' := by
  simp only [closeOrphanToolCalls, ensures_bind, ensures_select, id_eq]
  refine ensures_mono (ensures_each (fun done store' =>
    ClosesTo world footprint sessionId turnId store store.projection []
      (done.filterMap (store.projection.orphanResult sessionId turnId)) store')
    ⟨.refl, .refl⟩ ?_) fun _ _ h => h
  intro done call rest store' _ hcloses
  rw [filterMap_append_singleton]
  by_cases hanswered : (store.projection.recordedResults sessionId turnId).any
      (fun result => result.callId = call.callId) = true
  · simp only [closeOrphanToolCall, Projection.orphanResult, hanswered, if_true, ensures_pure]
    simpa using hcloses
  · simp only [closeOrphanToolCall, Projection.orphanResult, hanswered]
    cases store.projection.rawCompletion sessionId turnId call.callId with
    | some raw => exact ensures_recordToolResult hclosable hactive hcloses
    | none => exact ensures_recordToolResult hclosable hactive hcloses

/-! ## A whole closing -/

/-- The Turn was closed and then ended by `payload`. -/
structure TurnFinished (world : World) (footprint : Footprint) (sessionId : SessionId)
    (turnId : TurnId) (payload : JournalEvent) (store store' : Store) : Prop where
  moves : Moves world footprint store store'
  closed : ∃ tables event delivery, store.projection.ClosedTurn sessionId turnId tables ∧
    event.payload = payload ∧
    Projection.SessionChange world tables sessionId event store'.projection delivery

theorem ensures_closeOrphans {tables : Projection} {start : Store}
    (hclosable : Closable footprint turnId)
    (hactive : tables.isActiveTurn sessionId turnId = true)
    (hcloses : ClosesTo world footprint sessionId turnId start tables (tables.openEffects turnId)
      ((tables.openEffects turnId).filterMap Projection.closedResult) store) :
    ensures (closeOrphanToolCalls world sessionId turnId) store fun _ store' =>
      Moves world footprint start store' ∧
      tables.ClosedTurn sessionId turnId store'.projection := by
  have hactive' : store.projection.isActiveTurn sessionId turnId = true := by
    rw [Projection.isActiveTurn_congr hcloses.closes.turns_eq, hactive]
  refine ensures_mono (ensures_closeOrphanToolCalls hclosable hactive') ?_
  intro _ store' horphans
  exact ⟨hcloses.moves.trans horphans.moves, store.projection, hcloses.closes, horphans.closes⟩

theorem ensures_appendTerminal {payload : JournalEvent} {start : Store} {actor : EventActor}
    (hend : ∃ status error entry, payload.turnEnd = some (turnId, status, error, entry))
    (hproduces : footprint.produces payload)
    (hactive : start.projection.isActiveTurn sessionId turnId = true)
    (hmoves : Moves world footprint start store)
    (hclosed : start.projection.ClosedTurn sessionId turnId store.projection) :
    ensures (appendSessionEvent world sessionId actor payload) store fun _ store' =>
      TurnFinished world footprint sessionId turnId payload start store' := by
  have hactive' : store.projection.isActiveTurn sessionId turnId = true := by
    rw [Projection.isActiveTurn_congr hclosed.turns_eq, hactive]
  have hlawful : Lawful footprint.closing store.projection sessionId payload := by
    obtain ⟨status, error, entry, hend⟩ := hend
    cases payload <;> simp only [JournalEvent.turnEnd, Option.some.injEq, Prod.mk.injEq,
      reduceCtorEq] at hend <;> obtain ⟨rfl, -⟩ := hend <;> exact ⟨hactive', hclosed.noOpenEffects⟩
  refine ensures_mono (ensures_appendSessionEvent hlawful hproduces) ?_
  intro event store' hrecorded
  obtain ⟨delivery, hchange⟩ := hrecorded.change
  exact ⟨hmoves.trans hrecorded.moves, store.projection, event, delivery, hclosed,
    hrecorded.payload_eq, hchange⟩

theorem turnEnd_terminalEvent {error stopReason : Option String} {status : TurnStatus}
    {payload : JournalEvent} (hevent : terminalEvent turnId error stopReason status = some payload) :
    ∃ error entry, payload.turnEnd = some (turnId, status, error, entry) := by
  cases status <;> simp only [terminalEvent, Option.some.injEq, reduceCtorEq] at hevent <;>
    subst hevent <;> exact ⟨_, _, rfl⟩

/-- The Turn's row has ended and the others are the same. -/
theorem TurnFinished.turns_eq {payload : JournalEvent} {store' : Store} {status : TurnStatus}
    {error : Option String} {entry : SessionEntryPayload}
    (hfinished : TurnFinished world footprint sessionId turnId payload store store')
    (hend : payload.turnEnd = some (turnId, status, error, entry)) :
    ∃ completedAt, store'.projection.turns = updateWhere (TurnRow.isActive turnId)
      (TurnRow.ended status error completedAt) store.projection.turns := by
  obtain ⟨tables, event, delivery, hclosed, hpayload, hchange⟩ := hfinished.closed
  obtain ⟨placed, -, hplaced⟩ := hchange.of_turnEnd (by rw [hpayload]; exact hend)
  exact ⟨event.recordedAt, by rw [hplaced.turns_eq, ← hclosed.turns_eq]⟩

/-- No row of the Turn is active any more. -/
theorem TurnFinished.completed {payload : JournalEvent} {store' : Store} {status : TurnStatus}
    {error : Option String} {entry : SessionEntryPayload}
    (hfinished : TurnFinished world footprint sessionId turnId payload store store')
    (hend : payload.turnEnd = some (turnId, status, error, entry)) {row : TurnRow}
    (hrow : row ∈ store'.projection.turns) (hid : row.turn.id = turnId) :
    row.turn.completedAt ≠ none := by
  obtain ⟨completedAt, hturns⟩ := hfinished.turns_eq hend
  rw [hturns] at hrow
  obtain ⟨old, -, rfl⟩ := mem_updateWhere.mp hrow
  by_cases hmatched : TurnRow.isActive turnId old = true
  · simp [hmatched, TurnRow.ended]
  · rw [if_neg hmatched] at hid ⊢
    exact fun hnone => hmatched (by simp [TurnRow.isActive, hid, hnone])

/-- Its row is there, and it has ended. -/
theorem TurnFinished.turnEnded {payload : JournalEvent} {store' : Store} {status : TurnStatus}
    {error : Option String} {entry : SessionEntryPayload}
    (hfinished : TurnFinished world footprint sessionId turnId payload store store')
    (hactive : store.projection.isActiveTurn sessionId turnId = true)
    (hend : payload.turnEnd = some (turnId, status, error, entry)) :
    store'.projection.TurnEnded turnId := by
  obtain ⟨completedAt, hturns⟩ := hfinished.turns_eq hend
  obtain ⟨row, hrow, hid, -, hcompleted⟩ := Projection.exists_of_isActiveTurn hactive
  refine ⟨TurnRow.ended status error completedAt row, ?_, hid, by simp [TurnRow.ended]⟩
  rw [hturns]
  exact mem_updateWhere.mpr ⟨row, hrow, by simp [TurnRow.isActive, hid, hcompleted]⟩

theorem turnEnded_of_selectTurn {tables : Projection} {existing : Turn}
    (hfind : (tables.turns.find? fun row =>
      row.turn.id = turnId ∧ row.turn.completedAt = none) = none)
    (hselect : tables.selectTurn turnId = .ok existing) : tables.TurnEnded turnId := by
  rw [Projection.selectTurn] at hselect
  cases hrow : tables.turns.find? fun row => row.turn.id = turnId with
  | none => simp [hrow] at hselect
  | some row =>
      have hmem := List.mem_of_find?_eq_some hrow
      have hid : row.turn.id = turnId := by simpa using List.find?_some hrow
      refine ⟨row, hmem, hid, fun hcompleted => ?_⟩
      exact absurd (List.find?_eq_none.mp hfind row hmem) (by simp [hid, hcompleted])

/-- Finishing an active Turn closes and ends it. -/
theorem ensures_finishTurn {status : TurnStatus} {error stopReason : Option String}
    (hclosable : Closable footprint turnId) (hkeyed : store.projection.Keyed)
    (hproduces : ∀ payload, terminalEvent turnId error stopReason status = some payload →
      footprint.produces payload) :
    ensures (finishTurnWithStopReason world turnId status error stopReason) store fun _ store' =>
      (store' = store ∧ store.projection.TurnEnded turnId) ∨ ∃ sessionId payload,
        terminalEvent turnId error stopReason status = some payload ∧
        store.projection.isActiveTurn sessionId turnId = true ∧
        TurnFinished world footprint sessionId turnId payload store store' := by
  simp only [finishTurnWithStopReason, ensures_bind, ensures_expect, ensures_transaction,
    ensures_select, id_eq]
  intro payload hpayload
  cases hfind : store.projection.turns.find? fun row =>
      row.turn.id = turnId ∧ row.turn.completedAt = none with
  | none =>
      simp only [turn, ensures_bind, ensures_select, ensures_lift, ensures_require]
      intro existing hselect _
      exact .inl ⟨trivial, turnEnded_of_selectTurn hfind hselect⟩
  | some row =>
      have hfound : row.turn.id = turnId ∧ row.turn.completedAt = none := by
        simpa using List.find?_some hfind
      have hactive : store.projection.isActiveTurn row.turn.sessionId turnId = true := by
        simp only [Projection.isActiveTurn, List.any_eq_true, decide_eq_true_eq]
        exact ⟨row, List.mem_of_find?_eq_some hfind, hfound.1, rfl, hfound.2⟩
      obtain ⟨error', entry, hend⟩ := turnEnd_terminalEvent hpayload
      have hterminal : ∀ store', Moves world footprint store store' ∧
          store.projection.ClosedTurn row.turn.sessionId turnId store'.projection →
          ensures (appendSessionEvent world row.turn.sessionId .system payload) store'
            fun _ store'' => (store'' = store ∧ store.projection.TurnEnded turnId) ∨
              ∃ sessionId payload, terminalEvent turnId error stopReason status = some payload ∧
              store.projection.isActiveTurn sessionId turnId = true ∧
              TurnFinished world footprint sessionId turnId payload store store'' := by
        rintro store' ⟨hmoves, hclosed⟩
        refine ensures_mono (ensures_appendTerminal ⟨_, _, _, hend⟩ (hproduces payload hpayload)
          hactive hmoves hclosed) fun _ store'' hfinished => .inr ?_
        exact ⟨row.turn.sessionId, payload, hpayload, hactive, hfinished⟩
      simp only [ensures_bind, ensures_require, ensures_ite, ensures_pure]
      intro _
      constructor
      · intro _
        refine ensures_mono (ensures_closeOpenEffects hclosable hkeyed hactive) ?_
        intro _ store' hcloses
        refine ensures_mono (ensures_closeOrphans hclosable hactive hcloses) fun _ store'' h => ?_
        exact hterminal store'' h
      · intro hnone
        have hnone : store.projection.openEffects turnId = [] := by simpa using hnone
        have hcloses : ClosesTo world footprint row.turn.sessionId turnId store store.projection
            (store.projection.openEffects turnId)
            ((store.projection.openEffects turnId).filterMap Projection.closedResult) store := by
          rw [hnone]
          exact ⟨.refl, .refl⟩
        refine ensures_mono (ensures_closeOrphans hclosable hactive hcloses) fun _ store'' h => ?_
        exact hterminal store'' h

/-- Interrupting an active Turn closes and ends it. -/
theorem ensures_interruptTurn {row : TurnRow} (hclosable : Closable footprint row.turn.id)
    (hkeyed : store.projection.Keyed) (hrow : row ∈ store.projection.turns)
    (hcompleted : row.turn.completedAt = none)
    (hproduces : ∀ reason, footprint.produces (.turnInterrupted row.turn.id reason)) :
    ensures (interruptTurn world row) store fun _ store' =>
      TurnFinished world footprint row.turn.sessionId row.turn.id
        (.turnInterrupted row.turn.id "Hub stopped before the Turn completed") store store' := by
  have hactive : store.projection.isActiveTurn row.turn.sessionId row.turn.id = true := by
    simp only [Projection.isActiveTurn, List.any_eq_true, decide_eq_true_eq]
    exact ⟨row, hrow, rfl, rfl, hcompleted⟩
  simp only [interruptTurn, ensures_bind, ensures_pure]
  refine ensures_mono (ensures_closeOpenEffects hclosable hkeyed hactive) ?_
  intro _ store' hcloses
  refine ensures_mono (ensures_closeOrphans hclosable hactive hcloses) ?_
  rintro _ store'' ⟨hmoves, hclosed⟩
  exact ensures_appendTerminal ⟨_, _, _, rfl⟩ (hproduces _) hactive hmoves hclosed

end Store

end Mews
