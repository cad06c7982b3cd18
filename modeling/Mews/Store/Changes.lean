import Mews.Store.Projection

/-!
# What projecting an entry changes

One inversion of the Session projection.  The payloads fall into families that
act on the same table in the same way, and `SessionChange` lists the families
with everything the projection has checked on the way.
-/

namespace Mews

open Protocol Table

@[simp] theorem demand_eq_ok {condition : Prop} [Decidable condition] {error : StoreError} :
    demand condition error = .ok () ↔ condition := by
  by_cases hcondition : condition <;> simp [demand, hcondition]

theorem bind_eq_ok {A B : Type} {first : Except StoreError A} {next : A → Except StoreError B}
    {result : B} :
    (first >>= next) = .ok result ↔ ∃ value, first = .ok value ∧ next value = .ok result := by
  cases first <;> simp [bind, Except.bind]

@[simp] theorem exists_unit {p : Unit → Prop} : (∃ value, p value) ↔ p () :=
  ⟨fun ⟨_, h⟩ => h, fun h => ⟨(), h⟩⟩

@[simp] theorem updateOne_eq_ok {R : Type} {matched : R → Bool} {change : R → R}
    {rows result : List R} {missing : StoreError} :
    updateOne matched change rows missing = .ok result ↔
      rows.countP matched = 1 ∧ result = updateWhere matched change rows := by
  by_cases hcount : rows.countP matched = 1 <;> simp [updateOne, hcount, eq_comm]

@[simp] theorem pure_eq_ok {A : Type} {value result : A} :
    (pure value : Except StoreError A) = .ok result ↔ value = result := by
  simp [pure, Except.pure]

/-! ### Failures -/

@[simp] theorem demand_eq_error {condition : Prop} [Decidable condition] {error error' : StoreError} :
    demand condition error = .error error' ↔ ¬condition ∧ error = error' := by
  by_cases hcondition : condition <;> simp [demand, hcondition]

theorem bind_eq_error {A B : Type} {first : Except StoreError A} {next : A → Except StoreError B}
    {error : StoreError} :
    (first >>= next) = .error error ↔
      first = .error error ∨ ∃ value, first = .ok value ∧ next value = .error error := by
  cases first <;> simp [bind, Except.bind]

@[simp] theorem pure_eq_error {A : Type} {value : A} {error : StoreError} :
    (pure value : Except StoreError A) = .error error ↔ False := by
  simp [pure, Except.pure]

@[simp] theorem mapError_eq_error {A E : Type} {outcome : Except E A} {wrap : E → StoreError}
    {error : StoreError} :
    outcome.mapError wrap = .error error ↔ ∃ inner, outcome = .error inner ∧ wrap inner = error := by
  cases outcome <;> simp [Except.mapError]

namespace Protocol.JournalEvent

/-- The timeline entry a payload appends and whether it is contextual. -/
def timelineEntry : JournalEvent → Option (MessageId × SessionEntryPayload × Bool)
  | .userMessageAppended entryId content metadata source =>
      some (entryId, .userMessage content metadata source, true)
  | .assistantResponseRecorded turnId entryId response =>
      some (entryId, .assistantResponse turnId response, true)
  | .toolCallRequested turnId entryId call => some (entryId, .toolStarted turnId call, false)
  | .toolResultRecorded turnId entryId result => some (entryId, .toolResult turnId result, true)
  | .reasoningRecorded turnId entryId text visibility provenance =>
      some (entryId, .reasoning turnId text visibility provenance, false)
  | .harnessObservationRecorded turnId entryId harnessSessionId kind data =>
      some (entryId, .harnessObservation turnId harnessSessionId kind data, false)
  | .contextCompacted entryId summary firstKeptEntryId tokensBefore =>
      some (entryId, .contextCompaction summary firstKeptEntryId tokensBefore, true)
  | _ => none

/-- The Turn a payload ends, with the status, error and entry it ends with. -/
def turnEnd : JournalEvent → Option (TurnId × TurnStatus × Option String × SessionEntryPayload)
  | .turnCompleted turnId stopReason =>
      some (turnId, .completed, none, .turnCompleted turnId stopReason)
  | .turnFailed turnId error => some (turnId, .failed, some error, .turnFailed turnId error)
  | .turnCancelled turnId => some (turnId, .cancelled, none, .turnCancelled turnId)
  | .turnInterrupted turnId reason =>
      some (turnId, .failed, some reason, .turnFailed turnId reason)
  | _ => none

/-- The effect a payload ends, with its status and raw result. -/
def effectEnd : JournalEvent → Option (OperationId × TurnId × EffectStatus × Option ToolResult)
  | .toolExecutionCompleted operationId turnId result =>
      some (operationId, turnId, Projection.completionStatus result, some result)
  | .effectSucceeded operationId turnId _ => some (operationId, turnId, .succeeded, none)
  | .effectFailed operationId turnId _ => some (operationId, turnId, .failed, none)
  | .effectUncertain operationId turnId _ => some (operationId, turnId, .uncertain, none)
  | _ => none

end Protocol.JournalEvent

namespace Projection

/-- An entry was placed below the leaf of its Session. -/
structure Placed (tables : Projection) (sessionId : SessionId) (entryId : MessageId)
    (payload : SessionEntryPayload) (contextual : Bool) (observationKey : Option String)
    (createdAt : DateTime) (tables' : Projection) (entry : SessionEntry) : Prop where
  leaf : tables.currentSessionLeaf sessionId = .ok entry.parentId
  entry_eq : entry =
    { id := entryId, sessionId, sequence := tables.nextSequence sessionId
      parentId := entry.parentId, payload, createdAt }
  admissible : tables.entryAdmissible ⟨entry, contextual, observationKey⟩
  tables_eq : tables' = { tables with
    sessionEntries := tables.sessionEntries ++ [⟨entry, contextual, observationKey⟩]
    sessions := if contextual then tables.setLeaf sessionId (some entryId) else tables.sessions }

namespace Placed

variable {tables tables' : Projection} {sessionId : SessionId} {entryId : MessageId}
  {payload : SessionEntryPayload} {contextual : Bool} {observationKey : Option String}
  {createdAt : DateTime} {entry : SessionEntry}
  (hplaced : Placed tables sessionId entryId payload contextual observationKey createdAt tables'
    entry)
include hplaced

theorem turns_eq : tables'.turns = tables.turns := by
  rw [hplaced.tables_eq]

theorem effects_eq : tables'.effects = tables.effects := by
  rw [hplaced.tables_eq]

theorem payload_eq : entry.payload = payload := by
  rw [hplaced.entry_eq]

theorem session_eq : entry.sessionId = sessionId := by
  rw [hplaced.entry_eq]

theorem id_eq : entry.id = entryId := by
  rw [hplaced.entry_eq]

/-- The timeline of the Session grows by the entry; the others stay. -/
theorem timeline_eq (other : SessionId) :
    tables'.timeline other = tables.timeline other ++
      if other = sessionId then [⟨entry, contextual, observationKey⟩] else [] := by
  rw [timeline, hplaced.tables_eq, List.filter_append, timeline]
  have hsession := hplaced.session_eq
  by_cases hother : other = sessionId
  · simp [hother, hsession]
  · simp [hother, hsession, Ne.symm hother]

end Placed

variable {world : World} {tables tables' : Projection} {event : JournalEntry}
  {sessionId : SessionId}

theorem placeEntry_eq_ok {entryId : MessageId} {payload : SessionEntryPayload}
    {contextual : Bool} {observationKey : Option String} {createdAt : DateTime}
    {entry : SessionEntry} :
    tables.placeEntry sessionId entryId payload contextual observationKey createdAt =
        .ok (tables', entry) ↔
      Placed tables sessionId entryId payload contextual observationKey createdAt tables'
        entry := by
  simp only [placeEntry, bind_eq_ok, exists_unit, demand_eq_ok, pure_eq_ok, Prod.mk.injEq]
  constructor
  · rintro ⟨parentId, hleaf, hadmissible, rfl, rfl⟩
    exact ⟨hleaf, rfl, hadmissible, rfl⟩
  · rintro ⟨hleaf, hentry, hadmissible, rfl⟩
    exact ⟨entry.parentId, hleaf, by rwa [← hentry], by rw [← hentry], hentry.symm⟩

/-- The key an entry is deduplicated by. -/
def observationKeyOf (event : JournalEntry) (payload : SessionEntryPayload) : Option String :=
  if payload.isObservation then event.correlationId else none

theorem appendSessionEntry_eq_ok (hsubject : event.subject = .session sessionId)
    {entryId : MessageId} {payload : SessionEntryPayload} {contextual : Bool}
    {entry : SessionEntry} :
    tables.appendSessionEntry world event entryId payload contextual = .ok (tables', entry) ↔
      validateSessionItem world payload = .ok () ∧
      Placed tables sessionId entryId payload contextual (observationKeyOf event payload)
        event.recordedAt tables' entry := by
  simp only [appendSessionEntry, journalSessionId, hsubject, observationKeyOf]
  rw [bind_eq_ok]
  simp only [Except.ok.injEq, exists_eq_left', bind_eq_ok, exists_unit, placeEntry_eq_ok]

/-- What projecting a Session entry does, by the family of its payload. -/
inductive SessionChange (world : World) (tables : Projection) (sessionId : SessionId)
    (event : JournalEntry) : Projection → Option Delivery → Prop
  | sessionCreated (session : Session) (hpayload : event.payload = .sessionCreated session)
      (hid : ∀ other ∈ tables.sessions, other.id ≠ session.id)
      (hagent : tables.agentExists session.agentId = true) :
      SessionChange world tables sessionId event
        { tables with
          sessions := tables.sessions ++
            [{ session with modelOverride := none, leafEntryId := none }] } none
  | modelChanged (model : Option String) (hpayload : event.payload = .sessionModelChanged model) :
      SessionChange world tables sessionId event
        { tables with
          sessions := updateWhere (fun session => session.id = sessionId)
            (fun session => { session with modelOverride := model }) tables.sessions } none
  | leafChanged (leaf : Option MessageId) (hpayload : event.payload = .sessionLeafChanged leaf) :
      SessionChange world tables sessionId event
        { tables with sessions := tables.setLeaf sessionId leaf } none
  | entryAppended (entryId : MessageId) (payload : SessionEntryPayload) (contextual : Bool)
      (entry : SessionEntry) (tables' : Projection) (delivery : Option Delivery)
      (hentry : event.payload.timelineEntry = some (entryId, payload, contextual))
      (hvalid : validateSessionItem world payload = .ok ())
      (hplaced : Placed tables sessionId entryId payload contextual
        (observationKeyOf event payload) event.recordedAt tables' entry)
      (hdelivery : ∀ sent ∈ delivery, sent.entryId = some entryId)
      (hobservation : payload.isObservation = true → delivery = none) :
      SessionChange world tables sessionId event tables' delivery
  | turnAccepted (turnId : TurnId) (agentRevision : Nat) (entryId : MessageId)
      (content : MessageContent) (metadata : Value) (source : MessageSource)
      (entry : SessionEntry) (placed : Projection)
      (hpayload : event.payload =
        .turnAccepted turnId agentRevision entryId content metadata source)
      (hplaced : Placed tables sessionId entryId (.userMessage content metadata source) true none
        event.recordedAt placed entry)
      (hadmissible : placed.turnAdmissible
        (acceptedTurn event sessionId turnId agentRevision source))
      (hrevision : placed.revisionExists sessionId agentRevision = true) :
      SessionChange world tables sessionId event
        { placed with
          turns := placed.turns ++ [acceptedTurn event sessionId turnId agentRevision source] }
        none
  | turnStarted (turnId : TurnId) (harness : HarnessProvenance) (entry : SessionEntry)
      (tables' : Projection) (hpayload : event.payload = .turnStarted turnId harness)
      (hactive : tables.isActiveTurn sessionId turnId = true)
      (hplaced : Placed
        { tables with
          turns := updateWhere (fun row => row.turn.id = turnId) (TurnRow.withHarness harness)
            tables.turns }
        sessionId (messageIdForEvent event.id) (.turnStarted turnId harness) false none
        event.recordedAt tables' entry) :
      SessionChange world tables sessionId event tables'
        (some { entryId := some (messageIdForEvent event.id), kind := .turnStarted turnId })
  | turnEnded (turnId : TurnId) (status : TurnStatus) (error : Option String)
      (payload : SessionEntryPayload) (entry : SessionEntry) (tables' : Projection)
      (delivery : Delivery) (hend : event.payload.turnEnd = some (turnId, status, error, payload))
      (hactive : tables.turns.countP (TurnRow.isActive turnId) = 1)
      (hplaced : Placed
        { tables with
          turns := updateWhere (TurnRow.isActive turnId)
            (TurnRow.ended status error event.recordedAt) tables.turns }
        sessionId (messageIdForEvent event.id) payload false none event.recordedAt tables' entry)
      (hdelivery : delivery.entryId = some (messageIdForEvent event.id)) :
      SessionChange world tables sessionId event tables' (some delivery)
  | effectScheduled (operationId : OperationId) (turnId : TurnId) (effect : EffectRequest)
      (hpayload : event.payload = .effectScheduled operationId turnId effect)
      (hadmissible : tables.effectAdmissible
        (scheduledEffect event sessionId operationId turnId effect)) :
      SessionChange world tables sessionId event
        { tables with
          effects := tables.effects ++
            [scheduledEffect event sessionId operationId turnId effect] } none
  | effectStarted (operationId : OperationId) (turnId : TurnId)
      (hpayload : event.payload = .effectStarted operationId turnId)
      (hscheduled : tables.effects.countP (EffectRow.isScheduled operationId) = 1) :
      SessionChange world tables sessionId event
        { tables with
          effects := updateWhere (EffectRow.isScheduled operationId)
            (EffectRow.started event.recordedAt) tables.effects } none
  | effectEnded (operationId : OperationId) (turnId : TurnId) (status : EffectStatus)
      (rawResult : Option ToolResult)
      (hend : event.payload.effectEnd = some (operationId, turnId, status, rawResult))
      (hopen : tables.effects.countP (EffectRow.isOpenOf sessionId turnId operationId) = 1) :
      SessionChange world tables sessionId event
        { tables with
          effects := updateWhere (EffectRow.isOpenOf sessionId turnId operationId)
            (EffectRow.ended status rawResult event) tables.effects } none
  | bindingsChanged (acpSessionBindings : List AcpSessionBinding)
      (hpayload : (∃ binding, event.payload = .acpBindingChanged binding) ∨
        ∃ hostId harness version hash channel,
          event.payload = .acpContextDispatched hostId harness version hash channel) :
      SessionChange world tables sessionId event { tables with acpSessionBindings } none
  | ignored (hpayload : event.payload.subjectType ≠ .session) :
      SessionChange world tables sessionId event tables none

theorem isObservation_of_turnEnd {turnId : TurnId} {status : TurnStatus} {error : Option String}
    {payload : SessionEntryPayload}
    (hend : event.payload.turnEnd = some (turnId, status, error, payload)) :
    payload.isObservation = false := by
  cases h : event.payload <;> simp_all [JournalEvent.turnEnd] <;> obtain ⟨-, -, -, rfl⟩ := hend <;>
    rfl

theorem projectTurnTerminal_change {turnId : TurnId} {status : TurnStatus}
    {error : Option String} {payload : SessionEntryPayload} {kind : ClientEventKind}
    {delivery : Option Delivery} (hsubject : event.subject = .session sessionId)
    (hend : event.payload.turnEnd = some (turnId, status, error, payload))
    (hproject : tables.projectTurnTerminal world event turnId status error payload kind =
      .ok (tables', delivery)) :
    SessionChange world tables sessionId event tables' delivery := by
  simp only [projectTurnTerminal, bind_eq_ok, updateOne_eq_ok, appendSessionEntry_eq_ok hsubject,
    Prod.exists, pure_eq_ok, Prod.mk.injEq] at hproject
  obtain ⟨_, ⟨hactive, rfl⟩, placed, entry, ⟨-, hplaced⟩, rfl, rfl⟩ := hproject
  rw [observationKeyOf, isObservation_of_turnEnd hend] at hplaced
  exact .turnEnded turnId status error payload entry placed _ hend hactive hplaced rfl

theorem projectSession_change {delivery : Option Delivery}
    (hsubject : event.subject = .session sessionId)
    (hproject : tables.projectSession world event = .ok (tables', delivery)) :
    SessionChange world tables sessionId event tables' delivery := by
  rw [projectSession, journalSessionId, hsubject, bind_eq_ok] at hproject
  obtain ⟨_, ⟨⟩, hproject⟩ := hproject
  cases hpayload : event.payload with
  | sessionCreated session =>
      simp only [hpayload, createSession, bind_eq_ok, exists_unit, demand_eq_ok, pure_eq_ok,
        Prod.mk.injEq] at hproject
      obtain ⟨_, ⟨hid, ⟨hagent, -⟩, rfl⟩, rfl, rfl⟩ := hproject
      exact .sessionCreated session hpayload hid hagent
  | sessionModelChanged model =>
      simp only [hpayload, bind_eq_ok, updateOne_eq_ok, pure_eq_ok, Prod.mk.injEq] at hproject
      obtain ⟨_, ⟨-, rfl⟩, rfl, rfl⟩ := hproject
      exact .modelChanged model hpayload
  | sessionLeafChanged leaf =>
      simp only [hpayload, bind_eq_ok, updateOne_eq_ok, pure_eq_ok, Prod.mk.injEq] at hproject
      obtain ⟨_, ⟨-, rfl⟩, rfl, rfl⟩ := hproject
      exact .leafChanged leaf hpayload
  | userMessageAppended entryId content metadata source =>
      simp only [hpayload, bind_eq_ok, appendSessionEntry_eq_ok hsubject, Prod.exists, pure_eq_ok,
        Prod.mk.injEq] at hproject
      obtain ⟨_, entry, ⟨hvalid, hplaced⟩, rfl, rfl⟩ := hproject
      exact .entryAppended entryId _ true entry _ none (by rw [hpayload]; rfl) hvalid hplaced
        (by simp) (by simp)
  | turnAccepted turnId agentRevision entryId content metadata source =>
      simp only [hpayload, acceptTurn, bind_eq_ok, exists_unit, pure_eq_ok, Prod.mk.injEq,
        placeEntry_eq_ok, insertTurn, demand_eq_ok, Prod.exists] at hproject
      obtain ⟨_, ⟨-, _, -, -, placed, entry, hplaced, hrevision, hadmissible, rfl⟩, rfl, rfl⟩ :=
        hproject
      exact .turnAccepted turnId agentRevision entryId content metadata source entry placed
        hpayload hplaced hadmissible hrevision
  | turnStarted turnId harness =>
      simp only [hpayload, startTurn, bind_eq_ok, exists_unit, demand_eq_ok,
        appendSessionEntry_eq_ok hsubject, Prod.exists, pure_eq_ok, Prod.mk.injEq] at hproject
      obtain ⟨hactive, placed, entry, ⟨-, hplaced⟩, rfl, rfl⟩ := hproject
      exact .turnStarted turnId harness entry placed hpayload hactive hplaced
  | assistantResponseRecorded turnId entryId response =>
      simp only [hpayload, bind_eq_ok, appendSessionEntry_eq_ok hsubject, Prod.exists, pure_eq_ok,
        Prod.mk.injEq] at hproject
      obtain ⟨_, entry, ⟨hvalid, hplaced⟩, rfl, rfl⟩ := hproject
      refine .entryAppended entryId _ true entry _ _ (by rw [hpayload]; rfl) hvalid hplaced ?_
        (by simp [SessionEntryPayload.isObservation])
      intro sent hsent
      by_cases htext : response.text = "" <;> simp [htext] at hsent
      rw [← hsent]
  | toolCallRequested turnId entryId call =>
      simp only [hpayload, bind_eq_ok, appendSessionEntry_eq_ok hsubject, Prod.exists, pure_eq_ok,
        Prod.mk.injEq] at hproject
      obtain ⟨_, entry, ⟨hvalid, hplaced⟩, rfl, rfl⟩ := hproject
      exact .entryAppended entryId _ false entry _ _ (by rw [hpayload]; rfl) hvalid hplaced
        (by simp) (by simp [SessionEntryPayload.isObservation])
  | toolResultRecorded turnId entryId result =>
      simp only [hpayload, bind_eq_ok, appendSessionEntry_eq_ok hsubject, Prod.exists, pure_eq_ok,
        Prod.mk.injEq] at hproject
      obtain ⟨_, entry, ⟨hvalid, hplaced⟩, rfl, rfl⟩ := hproject
      exact .entryAppended entryId _ true entry _ _ (by rw [hpayload]; rfl) hvalid hplaced
        (by simp) (by simp [SessionEntryPayload.isObservation])
  | reasoningRecorded turnId entryId text visibility provenance =>
      simp only [hpayload, bind_eq_ok, appendSessionEntry_eq_ok hsubject, Prod.exists, pure_eq_ok,
        Prod.mk.injEq] at hproject
      obtain ⟨_, entry, ⟨hvalid, hplaced⟩, rfl, rfl⟩ := hproject
      exact .entryAppended entryId _ false entry _ none (by rw [hpayload]; rfl) hvalid hplaced
        (by simp) (by simp)
  | harnessObservationRecorded turnId entryId harnessSessionId kind data =>
      simp only [hpayload, bind_eq_ok, appendSessionEntry_eq_ok hsubject, Prod.exists, pure_eq_ok,
        Prod.mk.injEq] at hproject
      obtain ⟨_, entry, ⟨hvalid, hplaced⟩, rfl, rfl⟩ := hproject
      exact .entryAppended entryId _ false entry _ none (by rw [hpayload]; rfl) hvalid hplaced
        (by simp) (by simp)
  | contextCompacted entryId summary firstKeptEntryId tokensBefore =>
      simp only [hpayload, bind_eq_ok, appendSessionEntry_eq_ok hsubject, Prod.exists, pure_eq_ok,
        Prod.mk.injEq] at hproject
      obtain ⟨_, entry, ⟨hvalid, hplaced⟩, rfl, rfl⟩ := hproject
      exact .entryAppended entryId _ true entry _ none (by rw [hpayload]; rfl) hvalid hplaced
        (by simp) (by simp)
  | effectScheduled operationId turnId effect =>
      simp only [hpayload, scheduleEffect, bind_eq_ok, exists_unit, demand_eq_ok, pure_eq_ok,
        Prod.mk.injEq] at hproject
      obtain ⟨_, ⟨hadmissible, rfl⟩, rfl, rfl⟩ := hproject
      exact .effectScheduled operationId turnId effect hpayload hadmissible
  | effectStarted operationId turnId =>
      simp only [hpayload, startEffect, bind_eq_ok, updateOne_eq_ok, pure_eq_ok,
        Prod.mk.injEq] at hproject
      obtain ⟨_, ⟨_, ⟨hscheduled, rfl⟩, rfl⟩, rfl, rfl⟩ := hproject
      exact .effectStarted operationId turnId hpayload hscheduled
  | toolExecutionCompleted operationId turnId result =>
      simp only [hpayload, setEffectTerminal, bind_eq_ok, updateOne_eq_ok, pure_eq_ok,
        Prod.mk.injEq] at hproject
      obtain ⟨_, ⟨_, ⟨hopen, rfl⟩, rfl⟩, rfl, rfl⟩ := hproject
      exact .effectEnded operationId turnId _ _ (by rw [hpayload]; rfl) hopen
  | effectSucceeded operationId turnId result =>
      simp only [hpayload, setEffectTerminal, bind_eq_ok, updateOne_eq_ok, pure_eq_ok,
        Prod.mk.injEq] at hproject
      obtain ⟨_, ⟨_, ⟨hopen, rfl⟩, rfl⟩, rfl, rfl⟩ := hproject
      exact .effectEnded operationId turnId _ _ (by rw [hpayload]; rfl) hopen
  | effectFailed operationId turnId error =>
      simp only [hpayload, setEffectTerminal, bind_eq_ok, updateOne_eq_ok, pure_eq_ok,
        Prod.mk.injEq] at hproject
      obtain ⟨_, ⟨_, ⟨hopen, rfl⟩, rfl⟩, rfl, rfl⟩ := hproject
      exact .effectEnded operationId turnId _ _ (by rw [hpayload]; rfl) hopen
  | effectUncertain operationId turnId reason =>
      simp only [hpayload, setEffectTerminal, bind_eq_ok, updateOne_eq_ok, pure_eq_ok,
        Prod.mk.injEq] at hproject
      obtain ⟨_, ⟨_, ⟨hopen, rfl⟩, rfl⟩, rfl, rfl⟩ := hproject
      exact .effectEnded operationId turnId _ _ (by rw [hpayload]; rfl) hopen
  | acpBindingChanged binding =>
      simp only [hpayload, bindAcpSession, bind_eq_ok, exists_unit, demand_eq_ok, pure_eq_ok,
        Prod.mk.injEq] at hproject
      obtain ⟨_, ⟨-, -, rfl⟩, rfl, rfl⟩ := hproject
      exact .bindingsChanged _ (.inl ⟨binding, hpayload⟩)
  | acpContextDispatched hostId harness version hash channel =>
      simp only [hpayload, dispatchAcpContext, bind_eq_ok, updateOne_eq_ok, pure_eq_ok,
        Prod.mk.injEq] at hproject
      obtain ⟨_, ⟨_, ⟨-, rfl⟩, rfl⟩, rfl, rfl⟩ := hproject
      exact .bindingsChanged _ (.inr ⟨hostId, harness, version, hash, channel, hpayload⟩)
  | turnCompleted turnId stopReason =>
      simp only [hpayload] at hproject
      exact projectTurnTerminal_change hsubject (by rw [hpayload]; rfl) hproject
  | turnFailed turnId error =>
      simp only [hpayload] at hproject
      exact projectTurnTerminal_change hsubject (by rw [hpayload]; rfl) hproject
  | turnCancelled turnId =>
      simp only [hpayload] at hproject
      exact projectTurnTerminal_change hsubject (by rw [hpayload]; rfl) hproject
  | turnInterrupted turnId reason =>
      simp only [hpayload] at hproject
      exact projectTurnTerminal_change hsubject (by rw [hpayload]; rfl) hproject
  | _ =>
      simp only [hpayload, pure_eq_ok, Prod.mk.injEq] at hproject
      obtain ⟨rfl, rfl⟩ := hproject
      exact .ignored (by simp [hpayload, JournalEvent.subjectType])

end Projection

end Mews
