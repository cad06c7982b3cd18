import Mathlib.Data.List.Induction
import Mews.Store.Runs

/-!
# ACP bindings

Each Session has at most one binding.  Its flag stands for a dispatch record in
the timeline of the Session: one that names the ACP session of the binding and
the context it was bound under.
-/

namespace Mews

open Protocol Table Tx

/-- One context as it was handed to one ACP session. -/
structure ContextDispatch where
  acpSessionId : String
  version : Nat
  hash : String
  channel : AcpInstructionChannel
  deriving DecidableEq, Repr

/-- The entry records this dispatch. -/
def ContextDispatch.recordedBy (dispatch : ContextDispatch) : SessionEntryPayload → Bool
  | .harnessObservation _ harnessSessionId kind data =>
      harnessSessionId = some dispatch.acpSessionId ∧ kind = "context_dispatched" ∧
      data.get "version" = some (.number (toString dispatch.version)) ∧
      data.get "hash" = some (.string dispatch.hash) ∧
      data.get "channel" = some (.string dispatch.channel.asStr)
  | _ => false

def Protocol.AcpSessionBinding.dispatch (binding : AcpSessionBinding) : ContextDispatch :=
  { acpSessionId := binding.acpSessionId, version := binding.contextVersion
    hash := binding.contextHash, channel := binding.contextChannel }

def AcpBindingInput.dispatch (world : World) (input : AcpBindingInput) : ContextDispatch :=
  { acpSessionId := input.acpSessionId, version := input.context.version
    hash := world.renderedHash input.contextText, channel := input.channel }

/-- The key a dispatch is recorded under, whatever the context. -/
def dispatchKey (acpSessionId : String) : String := "context_dispatched:" ++ acpSessionId

/-- The key a Turn's binding is recorded under. -/
def bindingKey (turnId : TurnId) : String := "binding:" ++ turnId.asStr

theorem bindingKey_ne_dispatchKey (turnId : TurnId) (acpSessionId : String) :
    bindingKey turnId ≠ dispatchKey acpSessionId := by
  intro heq
  have hheads : ("binding:" ++ turnId.asStr).toList.head? =
      ("context_dispatched:" ++ acpSessionId).toList.head? := congrArg (·.toList.head?) heq
  simp at hheads

/-- The entry an observation is recorded as. -/
def observationItem (turnId : TurnId) (acpSessionId : Option String) :
    AcpObservation → SessionEntryPayload
  | .completedReasoning text messageId visibility =>
      .reasoning turnId text visibility (.harness "acp" messageId)
  | observation =>
      .harnessObservation turnId acpSessionId
        (((observation.toValue.get "type").bind Value.asStr).getD "acp") observation.toValue

theorem timelineEntry_observationEvent (turnId : TurnId) (entryId : MessageId)
    (acpSessionId : Option String) (observation : AcpObservation) :
    (Store.observationEvent turnId entryId acpSessionId observation).timelineEntry =
      some (entryId, observationItem turnId acpSessionId observation, false) := by
  cases observation <;> rfl

theorem isObservation_observationItem (turnId : TurnId) (acpSessionId : Option String)
    (observation : AcpObservation) :
    (observationItem turnId acpSessionId observation).isObservation = true := by
  cases observation <;> rfl

theorem recordedBy_bindingChanged (dispatch : ContextDispatch) (turnId : TurnId)
    (acpSessionId : Option String) (transition : AcpBindingTransition) :
    dispatch.recordedBy (observationItem turnId acpSessionId (.bindingChanged transition)) =
      false := by
  simp [ContextDispatch.recordedBy, observationItem, AcpObservation.toValue, Value.get]

theorem recordedBy_contextDispatched (dispatch : ContextDispatch) (turnId : TurnId)
    (text : String) :
    dispatch.recordedBy (observationItem turnId (some dispatch.acpSessionId)
      (.contextDispatched dispatch.version dispatch.hash dispatch.channel text)) = true := by
  simp [ContextDispatch.recordedBy, observationItem, AcpObservation.toValue, Value.get, Value.asStr]

namespace Projection

variable {tables tables' : Projection}

/-- The timeline of the Session records this dispatch. -/
def dispatchRecorded (tables : Projection) (sessionId : SessionId) (dispatch : ContextDispatch) :
    Bool :=
  (tables.timeline sessionId).any fun row => dispatch.recordedBy row.entry.payload

theorem dispatchRecorded_iff {sessionId : SessionId} {dispatch : ContextDispatch} :
    tables.dispatchRecorded sessionId dispatch = true ↔
      ∃ row ∈ tables.timeline sessionId, dispatch.recordedBy row.entry.payload = true := by
  rw [dispatchRecorded, List.any_eq_true]

theorem observationExists_iff {sessionId : SessionId} {key : String} :
    tables.observationExists sessionId (some key) = true ↔
      ∃ row ∈ tables.timeline sessionId, row.observationKey = some key := by
  simp [observationExists]

/-- The flag of every binding stands for a dispatch record. -/
def Coherent (tables : Projection) : Prop :=
  ∀ binding ∈ tables.acpSessionBindings,
    binding.contextDispatched = true ↔
      tables.dispatchRecorded binding.sessionId binding.dispatch = true

/-- Each Session has at most one binding. -/
def BoundOnce (tables : Projection) : Prop :=
  Unique (fun binding => binding.sessionId) tables.acpSessionBindings

/-! ## Timelines that grow -/

/-- The bindings stay, and every timeline keeps its rows; the new ones are
`added`. -/
structure Grows (added : SessionId → EntryRow → Prop) (tables tables' : Projection) : Prop where
  bindings_eq : tables'.acpSessionBindings = tables.acpSessionBindings
  kept : ∀ sessionId, ∀ row ∈ tables.timeline sessionId, row ∈ tables'.timeline sessionId
  added : ∀ sessionId, ∀ row ∈ tables'.timeline sessionId,
    row ∈ tables.timeline sessionId ∨ added sessionId row

variable {added : SessionId → EntryRow → Prop}

theorem Grows.of_eq (hbindings : tables'.acpSessionBindings = tables.acpSessionBindings)
    (hentries : tables'.sessionEntries = tables.sessionEntries) : Grows added tables tables' := by
  have htimeline : ∀ sessionId, tables'.timeline sessionId = tables.timeline sessionId := by
    intro sessionId
    rw [timeline, timeline, hentries]
  constructor
  · exact hbindings
  · intro sessionId row hrow
    rwa [htimeline]
  · intro sessionId row hrow
    rw [htimeline] at hrow
    exact .inl hrow

theorem Grows.trans {first second third : Projection} (hfirst : Grows added first second)
    (hsecond : Grows added second third) : Grows added first third where
  bindings_eq := hsecond.bindings_eq.trans hfirst.bindings_eq
  kept := fun sessionId row hrow => hsecond.kept sessionId row (hfirst.kept sessionId row hrow)
  added := by
    intro sessionId row hrow
    rcases hsecond.added sessionId row hrow with hrow | hadded
    · exact hfirst.added sessionId row hrow
    · exact .inr hadded

theorem Grows.mono {added' : SessionId → EntryRow → Prop} (hgrows : Grows added tables tables')
    (himp : ∀ sessionId row, added sessionId row → added' sessionId row) :
    Grows added' tables tables' where
  bindings_eq := hgrows.bindings_eq
  kept := hgrows.kept
  added := fun sessionId row hrow => (hgrows.added sessionId row hrow).imp_right (himp _ _)

theorem Grows.recorded (hgrows : Grows added tables tables') {sessionId : SessionId}
    {dispatch : ContextDispatch} (hrecorded : tables.dispatchRecorded sessionId dispatch = true) :
    tables'.dispatchRecorded sessionId dispatch = true := by
  obtain ⟨row, hrow, hrecords⟩ := dispatchRecorded_iff.mp hrecorded
  exact dispatchRecorded_iff.mpr ⟨row, hgrows.kept sessionId row hrow, hrecords⟩

/-- What is recorded in a timeline without new rows was recorded before. -/
theorem Grows.recorded_iff (hgrows : Grows added tables tables') {sessionId : SessionId}
    {dispatch : ContextDispatch} (hnone : ∀ row, ¬added sessionId row) :
    tables'.dispatchRecorded sessionId dispatch = true ↔
      tables.dispatchRecorded sessionId dispatch = true := by
  constructor
  · intro hrecorded
    obtain ⟨row, hrow, hrecords⟩ := dispatchRecorded_iff.mp hrecorded
    exact dispatchRecorded_iff.mpr
      ⟨row, (hgrows.added sessionId row hrow).resolve_right (hnone row), hrecords⟩
  · exact hgrows.recorded

theorem Grows.keyed (hgrows : Grows added tables tables') {sessionId : SessionId} {key : String}
    (hexists : tables.observationExists sessionId (some key) = true) :
    tables'.observationExists sessionId (some key) = true := by
  obtain ⟨row, hrow, hkey⟩ := observationExists_iff.mp hexists
  exact observationExists_iff.mpr ⟨row, hgrows.kept sessionId row hrow, hkey⟩

/-- New rows that record a dispatch belong to bindings with the flag. -/
theorem Coherent.grows (hcoherent : tables.Coherent) (hgrows : Grows added tables tables')
    (hadded : ∀ binding ∈ tables.acpSessionBindings, ∀ row, added binding.sessionId row →
      binding.dispatch.recordedBy row.entry.payload = true → binding.contextDispatched = true) :
    tables'.Coherent := by
  intro binding hbinding
  rw [hgrows.bindings_eq] at hbinding
  rw [hcoherent binding hbinding]
  constructor
  · exact hgrows.recorded
  · intro hrecorded
    obtain ⟨row, hrow, hrecords⟩ := dispatchRecorded_iff.mp hrecorded
    rcases hgrows.added _ row hrow with hold | hnew
    · exact dispatchRecorded_iff.mpr ⟨row, hold, hrecords⟩
    · exact (hcoherent binding hbinding).mp (hadded binding hbinding row hnew hrecords)

theorem Placed.grows {sessionId : SessionId} {entryId : MessageId} {payload : SessionEntryPayload}
    {contextual : Bool} {key : Option String} {createdAt : DateTime} {entry : SessionEntry}
    (hplaced : Placed tables sessionId entryId payload contextual key createdAt tables' entry) :
    Grows (fun other row => other = sessionId ∧ row = ⟨entry, contextual, key⟩) tables tables' := by
  constructor
  · rw [hplaced.tables_eq]
  · intro other row hrow
    rw [hplaced.timeline_eq]
    exact List.mem_append_left _ hrow
  · intro other row hrow
    rw [hplaced.timeline_eq] at hrow
    by_cases hother : other = sessionId
    · rw [if_pos hother] at hrow
      rcases List.mem_append.mp hrow with hrow | hrow
      · exact .inl hrow
      · exact .inr ⟨hother, List.mem_singleton.mp hrow⟩
    · rw [if_neg hother, List.append_nil] at hrow
      exact .inl hrow

/-! ## Changed bindings -/

theorem BoundOnce.selectAcpBinding_iff (honce : tables.BoundOnce) {sessionId : SessionId}
    {binding : AcpSessionBinding} :
    tables.selectAcpBinding sessionId = some binding ↔
      binding ∈ tables.acpSessionBindings ∧ binding.sessionId = sessionId := by
  rw [selectAcpBinding]
  constructor
  · intro hfind
    exact ⟨List.mem_of_find?_eq_some hfind, by simpa using List.find?_some hfind⟩
  · rintro ⟨hmem, rfl⟩
    cases hfind : tables.acpSessionBindings.find? fun other =>
        other.sessionId = binding.sessionId with
    | none =>
        have hnone := List.find?_eq_none.mp hfind binding hmem
        simp at hnone
    | some found =>
        have hfound : found.sessionId = binding.sessionId := by simpa using List.find?_some hfind
        rw [honce.eq_of_mem (List.mem_of_find?_eq_some hfind) hmem hfound]

/-- The binding is now the one of its Session; the other Sessions keep theirs. -/
structure Rebound (tables : Projection) (binding : AcpSessionBinding) (tables' : Projection) :
    Prop where
  once : tables'.BoundOnce
  entries_eq : tables'.sessionEntries = tables.sessionEntries
  mem : ∀ row ∈ tables'.acpSessionBindings,
    row = binding ∨ row ∈ tables.acpSessionBindings ∧ row.sessionId ≠ binding.sessionId
  found : binding ∈ tables'.acpSessionBindings

theorem Rebound.selected {binding : AcpSessionBinding} (hrebound : Rebound tables binding tables') :
    tables'.selectAcpBinding binding.sessionId = some binding :=
  hrebound.once.selectAcpBinding_iff.mpr ⟨hrebound.found, rfl⟩

theorem Rebound.timeline_eq {binding : AcpSessionBinding}
    (hrebound : Rebound tables binding tables') (sessionId : SessionId) :
    tables'.timeline sessionId = tables.timeline sessionId := by
  rw [timeline, timeline, hrebound.entries_eq]

theorem Rebound.exists_eq {binding : AcpSessionBinding} (hrebound : Rebound tables binding tables')
    (sessionId : SessionId) (key : Option String) :
    tables'.observationExists sessionId key = tables.observationExists sessionId key := by
  rw [observationExists, observationExists, hrebound.timeline_eq]

theorem Rebound.recorded_eq {binding : AcpSessionBinding}
    (hrebound : Rebound tables binding tables') (sessionId : SessionId)
    (dispatch : ContextDispatch) :
    tables'.dispatchRecorded sessionId dispatch = tables.dispatchRecorded sessionId dispatch := by
  rw [dispatchRecorded, dispatchRecorded, hrebound.timeline_eq]

/-- The upsert of a binding made when the one before was. -/
theorem bindAcpSession_rebound (honce : tables.BoundOnce) {binding : AcpSessionBinding}
    (hcreated : ∀ existing, tables.selectAcpBinding binding.sessionId = some existing →
      existing.createdAt = binding.createdAt)
    (hbind : tables.bindAcpSession binding = .ok tables') : Rebound tables binding tables' := by
  simp only [bindAcpSession, bind_eq_ok, exists_unit, demand_eq_ok, pure_eq_ok] at hbind
  obtain ⟨-, -, rfl⟩ := hbind
  cases hselected : tables.selectAcpBinding binding.sessionId with
  | none =>
      have hnew : ∀ row ∈ tables.acpSessionBindings, row.sessionId ≠ binding.sessionId := by
        intro row hrow hsession
        have hsome := honce.selectAcpBinding_iff.mpr ⟨hrow, hsession⟩
        rw [hselected] at hsome
        cases hsome
      have hany : ¬(tables.acpSessionBindings.any fun row =>
          row.sessionId = binding.sessionId) = true := by simpa using hnew
      constructor
      · rw [BoundOnce, if_neg hany]
        exact unique_append_singleton.mpr ⟨honce, hnew⟩
      · rfl
      · intro row hrow
        rw [if_neg hany] at hrow
        rcases List.mem_append.mp hrow with hrow | hrow
        · exact .inr ⟨hrow, hnew row hrow⟩
        · exact .inl (List.mem_singleton.mp hrow)
      · rw [if_neg hany]
        exact List.mem_append_right _ (List.mem_singleton.mpr rfl)
  | some existing =>
      obtain ⟨hmem, hsession⟩ := honce.selectAcpBinding_iff.mp hselected
      have hany : (tables.acpSessionBindings.any fun row =>
          row.sessionId = binding.sessionId) = true := by
        rw [List.any_eq_true]
        exact ⟨existing, hmem, by simpa using hsession⟩
      have hupdated : ∀ row ∈ tables.acpSessionBindings, row.sessionId = binding.sessionId →
          { binding with createdAt := row.createdAt } = binding := by
        intro row hrow hsame
        rw [hcreated row (honce.selectAcpBinding_iff.mpr ⟨hrow, hsame⟩)]
      constructor
      · have hcolumn : updateWhere (fun row : AcpSessionBinding => row.sessionId = binding.sessionId)
              (fun row => { binding with createdAt := row.createdAt }) tables.acpSessionBindings =
            updateWhere (fun row : AcpSessionBinding => row.sessionId = binding.sessionId)
              (fun row => { binding with createdAt := row.createdAt, sessionId := row.sessionId })
              tables.acpSessionBindings := by
          apply updateWhere_congr
          intro row _ hmatched
          rw [of_decide_eq_true hmatched]
        rw [BoundOnce, if_pos hany, hcolumn]
        refine (unique_updateWhere ?_).mpr honce
        exact fun _ => rfl
      · rfl
      · intro row hrow
        rw [if_pos hany] at hrow
        obtain ⟨old, hold, rfl⟩ := mem_updateWhere.mp hrow
        by_cases hsame : old.sessionId = binding.sessionId
        · rw [if_pos (by simpa using hsame)]
          exact .inl (hupdated old hold hsame)
        · rw [if_neg (by simpa using hsame)]
          exact .inr ⟨hold, hsame⟩
      · rw [if_pos hany]
        refine mem_updateWhere.mpr ⟨existing, hmem, ?_⟩
        rw [if_pos (by simpa using hsession)]
        exact hupdated existing hmem hsession

/-- The dispatch of a binding's own context sets its flag. -/
theorem dispatchAcpContext_rebound (honce : tables.BoundOnce) {binding : AcpSessionBinding}
    (hmem : binding ∈ tables.acpSessionBindings)
    (hdispatch : tables.dispatchAcpContext binding.sessionId binding.hostId binding.harness
      binding.contextVersion binding.contextHash binding.contextChannel = .ok tables') :
    Rebound tables { binding with contextDispatched := true } tables' := by
  simp only [dispatchAcpContext, bind_eq_ok, updateOne_eq_ok, pure_eq_ok] at hdispatch
  obtain ⟨_, ⟨-, rfl⟩, rfl⟩ := hdispatch
  constructor
  · refine (unique_updateWhere ?_).mpr honce
    exact fun _ => rfl
  · rfl
  · intro row hrow
    obtain ⟨old, hold, rfl⟩ := mem_updateWhere.mp hrow
    by_cases hsame : old.sessionId = binding.sessionId
    · obtain rfl := honce.eq_of_mem hold hmem hsame
      rw [if_pos (by simp)]
      exact .inl rfl
    · rw [if_neg (by simp [hsame])]
      exact .inr ⟨hold, hsame⟩
  · refine mem_updateWhere.mpr ⟨binding, hmem, ?_⟩
    rw [if_pos (by simp)]

/-- A new binding stands for what its own timeline records. -/
theorem Coherent.rebound {middle : Projection} (hcoherent : tables.Coherent)
    {binding : AcpSessionBinding} (hrebound : Rebound tables binding middle)
    (hgrows : Grows (fun sessionId _ => sessionId = binding.sessionId) middle tables')
    (hflag : binding.contextDispatched = true ↔
      tables'.dispatchRecorded binding.sessionId binding.dispatch = true) : tables'.Coherent := by
  intro row hrow
  rw [hgrows.bindings_eq] at hrow
  rcases hrebound.mem row hrow with rfl | ⟨hrow, hother⟩
  · exact hflag
  · rw [hcoherent row hrow]
    rw [← hrebound.recorded_eq]
    exact (hgrows.recorded_iff fun _ => hother).symm

end Projection

namespace Store

open Projection

variable {world : World} {store store' : Store} {sessionId : SessionId} {turnId : TurnId}

/-! ## Decisions -/

/-- The binding an input asks for. -/
def freshBinding (world : World) (sessionId : SessionId) (input : AcpBindingInput)
    (now : DateTime) : AcpSessionBinding :=
  { sessionId, hostId := input.hostId, harness := input.harness
    harnessDefinitionHash := input.definitionHash, acpSessionId := input.acpSessionId
    contextVersion := input.context.version
    contextHash := world.renderedHash input.contextText
    contextChannel := input.channel, contextText := input.contextText
    contextDispatched := input.contextDispatched, createdAt := now
    replacedAt := none, lastReplacementReason := none }

/-- The three ways a binding is decided: new, replaced or unchanged. -/
inductive BindingDecision (world : World) (tables : Projection) (sessionId : SessionId)
    (input : AcpBindingInput) : AcpSessionBinding → Prop
  | fresh (now : DateTime) (hnone : tables.selectAcpBinding sessionId = none)
      (htransition : input.transition = .new) :
      BindingDecision world tables sessionId input (freshBinding world sessionId input now)
  | replaced (now : DateTime) (existing : AcpSessionBinding) (reason : AcpReplacementReason)
      (hsome : tables.selectAcpBinding sessionId = some existing)
      (htransition : input.transition = .replace reason)
      (hhost : existing.hostId = input.hostId) :
      BindingDecision world tables sessionId input
        { freshBinding world sessionId input now with
          createdAt := existing.createdAt
          replacedAt := some now
          lastReplacementReason := some reason }
  | unchanged (existing : AcpSessionBinding)
      (hsome : tables.selectAcpBinding sessionId = some existing)
      (htransition : input.transition = .new)
      (hacp : existing.acpSessionId = input.acpSessionId) :
      BindingDecision world tables sessionId input existing

/-- The input repeats what its Session is bound to already. -/
def repeats (tables : Projection) (sessionId : SessionId) (input : AcpBindingInput) : Prop :=
  input.transition = .new ∧ tables.selectAcpBinding sessionId ≠ none

namespace BindingDecision

variable {tables : Projection} {input : AcpBindingInput} {binding : AcpSessionBinding}
  (hdecision : BindingDecision world tables sessionId input binding)
include hdecision

theorem session_eq : binding.sessionId = sessionId := by
  cases hdecision with
  | fresh => rfl
  | replaced => rfl
  | unchanged _ hsome => simpa using List.find?_some hsome

theorem acp_eq : binding.acpSessionId = input.acpSessionId := by
  cases hdecision with
  | fresh => rfl
  | replaced => rfl
  | unchanged _ _ _ hacp => exact hacp

theorem created_eq {existing : AcpSessionBinding}
    (hsome : tables.selectAcpBinding binding.sessionId = some existing) :
    existing.createdAt = binding.createdAt := by
  rw [hdecision.session_eq] at hsome
  cases hdecision with
  | fresh _ hnone =>
      rw [hnone] at hsome
      cases hsome
  | replaced _ existing' _ hsome' =>
      rw [hsome, Option.some.injEq] at hsome'
      rw [hsome']
  | unchanged _ hsome' =>
      rw [hsome, Option.some.injEq] at hsome'
      rw [hsome']

/-- A binding that is not a repetition is the one the input asks for. -/
theorem of_change (hchange : ¬repeats tables sessionId input) :
    binding.dispatch = input.dispatch world ∧
      binding.contextDispatched = input.contextDispatched := by
  cases hdecision with
  | fresh => exact ⟨rfl, rfl⟩
  | replaced => exact ⟨rfl, rfl⟩
  | unchanged _ hsome htransition => exact absurd ⟨htransition, by simp [hsome]⟩ hchange

theorem of_repeats (hrepeats : repeats tables sessionId input) :
    tables.selectAcpBinding sessionId = some binding := by
  cases hdecision with
  | fresh _ hnone => exact absurd hnone hrepeats.2
  | replaced _ _ _ _ htransition => simp [repeats, htransition] at hrepeats
  | unchanged _ hsome => exact hsome

end BindingDecision

theorem ensures_decided {input : AcpBindingInput} :
    ensures (decideAcpBinding world sessionId input) store fun binding store' =>
      BindingDecision world store.projection sessionId input binding ∧
      ∃ drawn, store' = { store with drawn } := by
  simp only [decideAcpBinding, ensures_bind, ensures_require, ensures_select, ensures_utcNow]
  intro _
  cases hselected : store.projection.selectAcpBinding sessionId <;>
    cases htransition : input.transition <;>
    simp only [ensures_pure, ensures_invalidData, ensures_bind, ensures_require]
  · exact ⟨.fresh _ hselected htransition, _, rfl⟩
  · rintro ⟨-, -, -, hacp⟩
    exact ⟨.unchanged _ hselected htransition hacp, _, rfl⟩
  · exact fun hhost => ⟨.replaced _ _ _ hselected htransition hhost, _, rfl⟩

/-! ## Observations -/

theorem Recorded.grows {payload : JournalEvent} {correlationId : Option String}
    {event : JournalEntry} {entryId : MessageId} {item : SessionEntryPayload} {contextual : Bool}
    (hrecorded : Recorded world Footprint.unrestricted store sessionId payload correlationId event
      store')
    (hentry : payload.timelineEntry = some (entryId, item, contextual)) :
    ∃ row, row.entry.payload = item ∧ row.observationKey = observationKeyOf event item ∧
      row ∈ store'.projection.timeline sessionId ∧
      Grows (fun other row' => other = sessionId ∧ row' = row) store.projection
        store'.projection := by
  obtain ⟨delivery, hproject⟩ := hrecorded.projects
  have hchange := projectSession_change hrecorded.subject_eq hproject
  rw [← hrecorded.payload_eq] at hentry
  obtain ⟨entry, hplaced⟩ := hchange.of_timelineEntry hentry
  refine ⟨⟨entry, contextual, observationKeyOf event item⟩, hplaced.payload_eq, rfl, ?_,
    hplaced.grows⟩
  rw [hplaced.timeline_eq, if_pos rfl]
  exact List.mem_append_right _ (List.mem_singleton.mpr rfl)

/-- An observation is recorded once under its key. -/
inductive Observed (sessionId : SessionId) (key : Option String) (item : SessionEntryPayload)
    (store store' : Store) : Prop
  | known (hkey : store.projection.observationExists sessionId key = true)
      (hsame : store' = store)
  | recorded (row : EntryRow) (event : JournalEntry)
      (hkey : store.projection.observationExists sessionId key = false)
      (hitem : row.entry.payload = item)
      (hrowKey : ∀ value, key = some value → row.observationKey = some value)
      (hrow : row ∈ store'.projection.timeline sessionId)
      (hgrows : Grows (fun other row' => other = sessionId ∧ row' = row) store.projection
        store'.projection)
      (hjournal : store'.journalEntries = store.journalEntries ++ [event])

theorem ensures_observe {key : Option String} {actor : EventActor}
    {observation : MessageId → JournalEvent} {item : SessionEntryPayload}
    (hlawful : ∀ entryId,
      Lawful Footprint.unrestricted.closing store.projection sessionId (observation entryId))
    (hentry : ∀ entryId, (observation entryId).timelineEntry = some (entryId, item, false))
    (hitem : item.isObservation = true) :
    ensures (do
      if ← select fun tables => tables.observationExists sessionId key then return ()
      else
        let entryId ← newId world
        let _ ← appendSessionEventCorrelated world sessionId actor (observation entryId) key) store
      fun _ store' => Observed sessionId key item store store' := by
  simp only [ensures_bind, ensures_select, ensures_ite, ensures_pure, ensures_newId]
  refine ⟨fun hkey => .known hkey rfl, fun hkey => ?_⟩
  have hproduces : ∀ entryId, Footprint.unrestricted.produces (observation entryId) :=
    fun _ => trivial
  refine ensures_mono (ensures_appendSessionEventCorrelated (hlawful _) (hproduces _)) ?_
  intro event store' hrecorded
  obtain ⟨row, hpayload, hrowKey, hrow, hgrows⟩ := hrecorded.grows (hentry _)
  refine .recorded row event (by simpa using hkey) hpayload ?_ hrow hgrows hrecorded.journal_eq
  rintro value rfl
  rw [hrowKey, observationKeyOf, if_pos hitem, hrecorded.correlation_eq]
  rfl

theorem ensures_recordObservation {acpSessionId key : Option String}
    {observation : AcpObservation} :
    ensures (recordAcpObservationTransaction world sessionId turnId acpSessionId key observation)
      store fun _ store' =>
        Observed sessionId key (observationItem turnId acpSessionId observation) store store' := by
  refine ensures_observe ?_ ?_ (isObservation_observationItem turnId acpSessionId observation)
  · intro entryId
    cases observation <;> trivial
  · exact fun entryId => timelineEntry_observationEvent turnId entryId acpSessionId observation

theorem ensures_appendHarnessObservation {actor : EventActor}
    {observation : HarnessObservationInput} :
    ensures (appendHarnessObservationIn world sessionId turnId actor observation) store
      fun _ store' => Observed sessionId observation.idempotencyKey
        (.harnessObservation turnId observation.harnessSessionId observation.kind observation.data)
        store store' :=
  ensures_observe (fun _ => trivial) (fun _ => rfl) rfl

namespace Observed

variable {key : Option String} {item : SessionEntryPayload}
  (hobserved : Observed sessionId key item store store')
include hobserved

theorem grows :
    Grows (fun other row => other = sessionId ∧ row.entry.payload = item ∧
        store.projection.observationExists sessionId key = false) store.projection
      store'.projection := by
  cases hobserved with
  | known _ hsame => exact .of_eq (by rw [hsame]) (by rw [hsame])
  | recorded row _ hkey hitem _ _ hgrows =>
      refine hgrows.mono ?_
      rintro other _ ⟨hother, rfl⟩
      exact ⟨hother, hitem, hkey⟩

theorem journal : ∃ events, store'.journalEntries = store.journalEntries ++ events := by
  cases hobserved with
  | known _ hsame => exact ⟨[], by rw [hsame, List.append_nil]⟩
  | recorded _ event _ _ _ _ _ hjournal => exact ⟨[event], hjournal⟩

/-- What the timeline records after the observation. -/
theorem recorded_iff {dispatch : ContextDispatch} :
    store'.projection.dispatchRecorded sessionId dispatch = true ↔
      store.projection.dispatchRecorded sessionId dispatch = true ∨
        store.projection.observationExists sessionId key = false ∧
          dispatch.recordedBy item = true := by
  constructor
  · intro hrecorded
    obtain ⟨row, hrow, hrecords⟩ := dispatchRecorded_iff.mp hrecorded
    rcases hobserved.grows.added sessionId row hrow with hold | ⟨-, hitem, hkey⟩
    · exact .inl (dispatchRecorded_iff.mpr ⟨row, hold, hrecords⟩)
    · exact .inr ⟨hkey, hitem ▸ hrecords⟩
  · rintro (hrecorded | ⟨hkey, hrecords⟩)
    · exact hobserved.grows.recorded hrecorded
    · cases hobserved with
      | known hknown =>
          rw [hkey] at hknown
          cases hknown
      | recorded row _ _ hitem _ hrow =>
          exact dispatchRecorded_iff.mpr ⟨row, hrow, by rw [hitem, hrecords]⟩

/-- The other keys are as they were. -/
theorem exists_other {value other : String} (hvalue : key = some value) (hother : other ≠ value) :
    store'.projection.observationExists sessionId (some other) =
      store.projection.observationExists sessionId (some other) := by
  rw [Bool.eq_iff_iff]
  constructor
  · intro hexists
    cases hobserved with
    | known _ hsame => rwa [hsame] at hexists
    | recorded row _ _ _ hrowKey _ hgrows =>
        obtain ⟨row', hrow', hkey'⟩ := observationExists_iff.mp hexists
        rcases hgrows.added sessionId row' hrow' with hold | ⟨-, rfl⟩
        · exact observationExists_iff.mpr ⟨row', hold, hkey'⟩
        · rw [hrowKey value hvalue, Option.some.injEq] at hkey'
          exact absurd hkey'.symm hother
  · exact hobserved.grows.keyed

end Observed

/-! ## Binding commands -/

/-- The observation of a dispatch that a binding command was told of. -/
def dispatchItem (world : World) (turnId : TurnId) (input : AcpBindingInput) :
    SessionEntryPayload :=
  observationItem turnId (some input.acpSessionId)
    (.contextDispatched input.context.version (world.renderedHash input.contextText)
      input.channel input.contextText)

theorem recordedBy_dispatchItem (turnId : TurnId) (input : AcpBindingInput) :
    (input.dispatch world).recordedBy (dispatchItem world turnId input) = true :=
  recordedBy_contextDispatched (input.dispatch world) turnId input.contextText

/-- What a binding command has done when it succeeds under a new key. -/
structure Bound (world : World) (sessionId : SessionId) (input : AcpBindingInput)
    (turn : Option TurnId) (store store' : Store) (binding : AcpSessionBinding) : Prop where
  decision : BindingDecision world store.projection sessionId input binding
  rebound : ∃ middle, Rebound store.projection binding middle ∧
    Grows (fun other _ => other = sessionId) middle store'.projection
  recorded : ∀ dispatch : ContextDispatch,
    store'.projection.dispatchRecorded sessionId dispatch = true ↔
      store.projection.dispatchRecorded sessionId dispatch = true ∨
        ∃ turnId, turn = some turnId ∧ input.contextDispatched = true ∧
          store.projection.observationExists sessionId (some (dispatchKey input.acpSessionId)) =
            false ∧
          dispatch.recordedBy (dispatchItem world turnId input) = true
  journal : ∃ event rest, store'.journalEntries = store.journalEntries ++ event :: rest ∧
    event.subject = .session sessionId ∧ event.payload = .acpBindingChanged binding
  observation : ∀ turnId, turn = some turnId → ∃ row ∈ store'.projection.timeline sessionId,
    row.observationKey = some (bindingKey turnId) ∧
    row.entry.payload = observationItem turnId (some binding.acpSessionId)
      (.bindingChanged input.transition)

/-- The binding and its journal entry, before any observation. -/
theorem ensures_rebind (world : World) (sessionId : SessionId) (input : AcpBindingInput)
    (actor : EventActor) (honce : store.projection.BoundOnce) :
    ensures (do
      let binding ← decideAcpBinding world sessionId input
      let _ ← appendSessionEvent world sessionId actor (.acpBindingChanged binding)) store
      fun _ store' => ∃ binding, BindingDecision world store.projection sessionId input binding ∧
        Rebound store.projection binding store'.projection ∧
        ∃ event, store'.journalEntries = store.journalEntries ++ [event] ∧
          event.subject = .session sessionId ∧ event.payload = .acpBindingChanged binding := by
  simp only [ensures_bind, ensures_pure]
  refine ensures_mono ensures_decided ?_
  rintro binding _ ⟨hdecision, drawn, rfl⟩
  have hproduces : Footprint.unrestricted.produces (.acpBindingChanged binding) := trivial
  refine ensures_mono (ensures_appendSessionEvent trivial hproduces) ?_
  intro event store' hrecorded
  refine ⟨binding, hdecision, ?_, event, hrecorded.journal_eq, hrecorded.subject_eq,
    hrecorded.payload_eq⟩
  obtain ⟨delivery, hproject⟩ := hrecorded.projects
  simp only [projectSession, journalSessionId, hrecorded.subject_eq, hrecorded.payload_eq,
    bind_eq_ok, pure_eq_ok, Prod.mk.injEq, Except.ok.injEq, exists_eq_left'] at hproject
  obtain ⟨tables, hbind, rfl, -⟩ := hproject
  exact bindAcpSession_rebound honce (fun _ => hdecision.created_eq) hbind

/-- A binding without observations. -/
theorem Bound.of_rebind {input : AcpBindingInput} {binding : AcpSessionBinding}
    (hdecision : BindingDecision world store.projection sessionId input binding)
    (hrebound : Rebound store.projection binding store'.projection)
    (hevent : ∃ event, store'.journalEntries = store.journalEntries ++ [event] ∧
      event.subject = .session sessionId ∧ event.payload = .acpBindingChanged binding) :
    Bound world sessionId input none store store' binding := by
  obtain ⟨event, hjournal, hsubject, hpayload⟩ := hevent
  refine ⟨hdecision, ⟨_, hrebound, .of_eq rfl rfl⟩, fun dispatch => ?_,
    ⟨event, [], hjournal, hsubject, hpayload⟩, fun _ h => by cases h⟩
  simp [hrebound.recorded_eq]

theorem ensures_bindAcpSession {input : AcpBindingInput} (honce : store.projection.BoundOnce) :
    ensures (bindAcpSession world sessionId input) store fun _ store' =>
      ∃ binding, Bound world sessionId input none store store' binding := by
  simp only [bindAcpSession]
  rw [ensures_bind, ensures_transaction]
  refine ensures_mono (ensures_rebind world sessionId input _ honce) ?_
  rintro _ store' ⟨binding, hdecision, hrebound, hevent⟩
  simp only [ensures_bind, ensures_select, ensures_expect]
  exact fun _ _ => ⟨binding, .of_rebind hdecision hrebound hevent⟩

/-- The observations of a Turn follow the binding and its journal entry. -/
theorem Bound.of_observed {input : AcpBindingInput} {binding : AcpSessionBinding}
    {first second : Store}
    (hdecision : BindingDecision world store.projection sessionId input binding)
    (hrebound : Rebound store.projection binding first.projection)
    (hevent : ∃ event, first.journalEntries = store.journalEntries ++ [event] ∧
      event.subject = .session sessionId ∧ event.payload = .acpBindingChanged binding)
    (hnew : store.projection.observationExists sessionId (some (bindingKey turnId)) = false)
    (hsecond : Observed sessionId (some (bindingKey turnId))
      (observationItem turnId (some input.acpSessionId) (.bindingChanged input.transition)) first
      second)
    (hthird : input.contextDispatched = false ∧ store' = second ∨
      input.contextDispatched = true ∧ Observed sessionId (some (dispatchKey input.acpSessionId))
        (dispatchItem world turnId input) second store') :
    Bound world sessionId input (some turnId) store store' binding := by
  have hgrows : Grows (fun other _ => other = sessionId) second.projection store'.projection := by
    rcases hthird with ⟨-, rfl⟩ | ⟨-, hthird⟩
    · exact .of_eq rfl rfl
    · exact hthird.grows.mono fun _ _ h => h.1
  have hrecorded : ∀ dispatch : ContextDispatch,
      second.projection.dispatchRecorded sessionId dispatch = true ↔
        store.projection.dispatchRecorded sessionId dispatch = true := by
    intro dispatch
    rw [hsecond.recorded_iff, hrebound.recorded_eq, recordedBy_bindingChanged]
    simp
  have hkey : second.projection.observationExists sessionId
        (some (dispatchKey input.acpSessionId)) =
      store.projection.observationExists sessionId (some (dispatchKey input.acpSessionId)) := by
    rw [hsecond.exists_other rfl (bindingKey_ne_dispatchKey turnId _).symm, hrebound.exists_eq]
  refine ⟨hdecision, ⟨_, hrebound, (hsecond.grows.mono fun _ _ h => h.1).trans hgrows⟩, ?_, ?_, ?_⟩
  · intro dispatch
    rcases hthird with ⟨hdispatched, rfl⟩ | ⟨hdispatched, hthird⟩
    · simp [hrecorded, hdispatched]
    · rw [hthird.recorded_iff, hrecorded, hkey]
      simp [hdispatched]
  · obtain ⟨event, hjournal, hsubject, hpayload⟩ := hevent
    obtain ⟨events, hsecondJournal⟩ := hsecond.journal
    obtain ⟨events', hthirdJournal⟩ :
        ∃ events, store'.journalEntries = second.journalEntries ++ events := by
      rcases hthird with ⟨-, rfl⟩ | ⟨-, hthird⟩
      · exact ⟨[], by rw [List.append_nil]⟩
      · exact hthird.journal
    refine ⟨event, events ++ events', ?_, hsubject, hpayload⟩
    rw [hthirdJournal, hsecondJournal, hjournal]
    simp
  · rintro _ ⟨⟩
    rw [hdecision.acp_eq]
    cases hsecond with
    | known hknown =>
        rw [hrebound.exists_eq, hnew] at hknown
        cases hknown
    | recorded row _ _ hitem hrowKey hrow =>
        exact ⟨row, hgrows.kept sessionId row hrow, hrowKey _ rfl, hitem⟩

theorem ensures_bindWithObservations {input : AcpBindingInput}
    (honce : store.projection.BoundOnce) :
    ensures (bindAcpSessionWithObservations world sessionId input turnId) store fun _ store' =>
      (store.projection.observationExists sessionId (some (bindingKey turnId)) = true →
        store' = store) ∧
      (store.projection.observationExists sessionId (some (bindingKey turnId)) = false →
        ∃ binding, Bound world sessionId input (some turnId) store store' binding) := by
  rw [bindAcpSessionWithObservations, ensures_transaction, ensures_bind, ensures_select,
    ensures_ite]
  refine ⟨fun hkey => ?_, fun hkey => ?_⟩
  · rw [ensures_pure]
    refine ⟨fun _ => rfl, fun hnone => ?_⟩
    cases hkey.symm.trans hnone
  have hrebind := ensures_rebind world sessionId input
    { kind := .harness, id := some input.harness } honce
  simp only [ensures_bind, ensures_pure] at hrebind ⊢
  refine ensures_mono hrebind fun _ _ happend => ensures_mono happend ?_
  rintro _ first ⟨binding, hdecision, hrebound, event, hjournal, hsubject, hpayload⟩
  refine ensures_mono ensures_recordObservation fun _ second hsecond => ?_
  rw [ensures_ite]
  constructor
  · intro hdispatched
    refine ensures_mono ensures_recordObservation fun _ third hthird => ?_
    refine ⟨fun hknown => absurd hknown hkey, fun hnew => ⟨binding, ?_⟩⟩
    exact Bound.of_observed hdecision hrebound ⟨event, hjournal, hsubject, hpayload⟩ hnew hsecond
      (.inr ⟨hdispatched, hthird⟩)
  · intro hdispatched
    rw [ensures_pure]
    refine ⟨fun hknown => absurd hknown hkey, fun hnew => ⟨binding, ?_⟩⟩
    exact Bound.of_observed hdecision hrebound ⟨event, hjournal, hsubject, hpayload⟩ hnew hsecond
      (.inl ⟨by simpa using hdispatched, rfl⟩)

/-- What marking a dispatch has done when it succeeds under a new key. -/
structure Marked (sessionId : SessionId) (acpSessionId : String) (store store' : Store)
    (binding : AcpSessionBinding) : Prop where
  selected : store.projection.selectAcpBinding sessionId = some binding
  acp_eq : binding.acpSessionId = acpSessionId
  rebound : ∃ middle, Rebound store.projection { binding with contextDispatched := true } middle ∧
    Grows (fun other _ => other = sessionId) middle store'.projection
  recorded : store'.projection.dispatchRecorded sessionId binding.dispatch = true

theorem ensures_mark {acpSessionId : String} (honce : store.projection.BoundOnce) :
    ensures (markAcpContextDispatchedWithObservation world sessionId turnId acpSessionId) store
      fun _ store' =>
        (store.projection.observationExists sessionId (some (dispatchKey acpSessionId)) = true →
          store' = store) ∧
        (store.projection.observationExists sessionId (some (dispatchKey acpSessionId)) = false →
          ∃ binding, Marked sessionId acpSessionId store store' binding) := by
  rw [markAcpContextDispatchedWithObservation, ensures_transaction, ensures_bind, ensures_select,
    ensures_ite]
  refine ⟨fun hkey => ?_, fun hkey => ?_⟩
  · rw [ensures_pure]
    refine ⟨fun _ => rfl, fun hnone => ?_⟩
    cases hkey.symm.trans hnone
  · simp only [ensures_bind, ensures_select, ensures_expect, ensures_require]
    intro binding hselected hacp
    have hproduces : Footprint.unrestricted.produces (.acpContextDispatched binding.hostId
      binding.harness binding.contextVersion binding.contextHash binding.contextChannel) := trivial
    refine ensures_mono (ensures_appendSessionEvent trivial hproduces) ?_
    intro event middle hrecorded
    refine ensures_mono ensures_recordObservation ?_
    intro _ store' hobserved
    obtain ⟨delivery, hproject⟩ := hrecorded.projects
    simp only [projectSession, journalSessionId, hrecorded.subject_eq, hrecorded.payload_eq,
      bind_eq_ok, pure_eq_ok, Prod.mk.injEq, Except.ok.injEq, exists_eq_left'] at hproject
    obtain ⟨tables, hdispatch, rfl, -⟩ := hproject
    obtain ⟨hmem, rfl⟩ := honce.selectAcpBinding_iff.mp hselected
    have hrebound := dispatchAcpContext_rebound honce hmem hdispatch
    have hkeys : middle.projection.observationExists binding.sessionId
        (some (dispatchKey acpSessionId)) = false :=
      (hrebound.exists_eq _ _).trans ((Bool.not_eq_true _).mp hkey)
    refine ⟨fun hknown => absurd hknown hkey, fun _ => ?_⟩
    refine ⟨binding, hselected, hacp, ⟨_, hrebound, ?_⟩, ?_⟩
    · exact hobserved.grows.mono fun _ _ h => h.1
    · refine hobserved.recorded_iff.mpr (.inr ⟨hkeys, ?_⟩)
      rw [← hacp]
      exact recordedBy_contextDispatched binding.dispatch turnId binding.contextText

end Store

/-! ## Steps -/

/-- The session, input and Turn of a binding command. -/
def StoreOp.binds : StoreOp → Option (SessionId × AcpBindingInput × Option TurnId)
  | .bindAcpSession sessionId input => some (sessionId, input, none)
  | .bindAcpSessionWithObservations sessionId input turnId => some (sessionId, input, some turnId)
  | _ => none

/-- The entries a command records as it is given them, each under its key. -/
def StoreOp.observes : StoreOp → List (SessionId × Option String × SessionEntryPayload)
  | .appendAcpObservation sessionId turnId acpSessionId key observation =>
      [(sessionId, key, observationItem turnId acpSessionId observation)]
  | .appendAcpObservationWithClientEvent sessionId turnId acpSessionId key observation _ =>
      [(sessionId, key, observationItem turnId acpSessionId observation)]
  | .appendHarnessObservations sessionId turnId observations =>
      observations.map fun observation =>
        (sessionId, observation.idempotencyKey, .harnessObservation turnId
          observation.harnessSessionId observation.kind observation.data)
  | _ => []

namespace Store

open Projection

variable {world : World} {store store' : Store} {sessionId : SessionId} {turnId : TurnId}

/-- The rows that an observing command adds, and those that record no dispatch. -/
def Addition (store : Store) (op : StoreOp) (sessionId : SessionId) (row : EntryRow) : Prop :=
  (∀ dispatch : ContextDispatch, dispatch.recordedBy row.entry.payload = false) ∨
    ∃ key, (sessionId, key, row.entry.payload) ∈ op.observes ∧
      store.projection.observationExists sessionId key = false

/-- A command leaves the bindings alone and adds the rows it may. -/
def Extended (op : StoreOp) (store store' : Store) : Prop :=
  Grows (Addition store op) store.projection store'.projection

theorem Extended.of_eq {op : StoreOp} (hsame : store'.projection = store.projection) :
    Extended op store store' :=
  Grows.of_eq (by rw [hsame]) (by rw [hsame])

/-- What a command does to the bindings. -/
inductive BindingStep (world : World) (op : StoreOp) (store store' : Store) : Prop
  | other (hextended : Extended op store store')
  | bound (sessionId : SessionId) (input : AcpBindingInput) (turn : Option TurnId)
      (binding : AcpSessionBinding) (hbinds : op.binds = some (sessionId, input, turn))
      (hnew : ∀ turnId, turn = some turnId →
        store.projection.observationExists sessionId (some (bindingKey turnId)) = false)
      (hbound : Bound world sessionId input turn store store' binding)
  | marked (sessionId : SessionId) (turnId : TurnId) (acpSessionId : String)
      (binding : AcpSessionBinding)
      (hop : op = .markAcpContextDispatchedWithObservation sessionId turnId acpSessionId)
      (hmarked : Marked sessionId acpSessionId store store' binding)

theorem BindingStep.of_eq {op : StoreOp} (hsame : store'.projection = store.projection) :
    BindingStep world op store store' :=
  .other (.of_eq hsame)

/-- An event that neither changes a binding nor is an observation. -/
def isPlain : JournalEvent → Bool
  | .acpBindingChanged .. | .acpContextDispatched .. | .harnessObservationRecorded .. => false
  | _ => true

theorem recordedBy_of_not_observation {item : SessionEntryPayload}
    (hitem : item.isObservation = false) (dispatch : ContextDispatch) :
    dispatch.recordedBy item = false := by
  cases item with
  | harnessObservation => cases hitem
  | _ => rfl

theorem recordedBy_of_timelineEntry {payload : JournalEvent} {entryId : MessageId}
    {item : SessionEntryPayload} {contextual : Bool} (hplain : isPlain payload = true)
    (hentry : payload.timelineEntry = some (entryId, item, contextual))
    (dispatch : ContextDispatch) : dispatch.recordedBy item = false := by
  cases payload with
  | harnessObservationRecorded => cases hplain
  | userMessageAppended | assistantResponseRecorded | toolCallRequested | toolResultRecorded
  | reasoningRecorded | contextCompacted =>
      cases hentry
      rfl
  | _ => cases hentry

theorem grows_of_change {tables tables' : Projection} {event : JournalEntry}
    {delivery : Option Delivery}
    (hchange : SessionChange world tables sessionId event tables' delivery)
    (hplain : isPlain event.payload = true) :
    Grows (fun _ row => ∀ dispatch : ContextDispatch,
      dispatch.recordedBy row.entry.payload = false) tables tables' := by
  have hplaced : ∀ {tables tables' : Projection} {entryId : MessageId}
      {payload : SessionEntryPayload} {contextual : Bool} {key : Option String}
      {createdAt : DateTime} {entry : SessionEntry},
      Placed tables sessionId entryId payload contextual key createdAt tables' entry →
      (∀ dispatch : ContextDispatch, dispatch.recordedBy payload = false) →
      Grows (fun _ row => ∀ dispatch : ContextDispatch,
        dispatch.recordedBy row.entry.payload = false) tables tables' := by
    intro _ _ _ _ _ _ _ _ hplaced hrecords
    refine hplaced.grows.mono ?_
    rintro _ _ ⟨-, rfl⟩ dispatch
    rw [hplaced.payload_eq]
    exact hrecords dispatch
  cases hchange with
  | entryAppended _ payload _ _ _ _ hentry _ hplace =>
      exact hplaced hplace (recordedBy_of_timelineEntry hplain hentry)
  | turnAccepted _ _ _ _ _ _ _ _ _ hplace =>
      have hgrows := hplaced hplace fun _ => rfl
      exact ⟨hgrows.bindings_eq, hgrows.kept, hgrows.added⟩
  | turnStarted _ _ _ _ _ _ hplace =>
      have hgrows := hplaced hplace fun _ => rfl
      exact ⟨hgrows.bindings_eq, hgrows.kept, hgrows.added⟩
  | turnEnded _ _ _ _ _ _ _ hend _ hplace =>
      have hgrows := hplaced hplace (recordedBy_of_not_observation (isObservation_of_turnEnd hend))
      exact ⟨hgrows.bindings_eq, hgrows.kept, hgrows.added⟩
  | bindingsChanged _ hpayload =>
      rcases hpayload with ⟨_, h⟩ | ⟨_, _, _, _, _, h⟩ <;> simp [h, isPlain] at hplain
  | _ => exact .of_eq rfl rfl

theorem Moves.grows {footprint : Footprint} (hmoves : Moves world footprint store store')
    (hplain : ∀ payload, footprint.produces payload → isPlain payload = true) :
    Grows (fun _ row => ∀ dispatch : ContextDispatch,
      dispatch.recordedBy row.entry.payload = false) store.projection store'.projection := by
  induction hmoves with
  | refl => exact .of_eq rfl rfl
  | tail _ hmove ih =>
      refine ih.trans ?_
      rcases hmove.session_tables with hsame | ⟨_, entry, _, -, -, -, hproduces, hchange⟩
      · exact .of_eq hsame.bindings_eq hsame.entries_eq
      · exact grows_of_change hchange (hplain _ hproduces)

theorem BindingStep.of_moves {op : StoreOp} {footprint : Footprint}
    (hmoves : Moves world footprint store store')
    (hplain : ∀ payload, footprint.produces payload → isPlain payload = true) :
    BindingStep world op store store' :=
  .other ((hmoves.grows hplain).mono fun _ _ => .inl)

/-- The commands that bind, mark or observe. -/
def observing : StoreOp → Bool
  | .bindAcpSession .. | .bindAcpSessionWithObservations ..
  | .markAcpContextDispatchedWithObservation .. | .appendHarnessObservations ..
  | .appendAcpObservation .. | .appendAcpObservationWithClientEvent .. => true
  | _ => false

theorem isPlain_of_endsWork {payload : JournalEvent} (hends : payload.endsWork = true) :
    isPlain payload = true := by
  cases payload with
  | acpBindingChanged | acpContextDispatched | harnessObservationRecorded => cases hends
  | _ => rfl

theorem isPlain_of_produces {op : StoreOp} (hop : observing op = false) (payload : JournalEvent)
    (hproduces : op.produces payload) : isPlain payload = true := by
  cases op with
  | bindAcpSession | bindAcpSessionWithObservations | markAcpContextDispatchedWithObservation
  | appendHarnessObservations | appendAcpObservation | appendAcpObservationWithClientEvent =>
      cases hop
  | finishEffect | finishTurnWithStopReason | recoverInterruptedWork =>
      exact isPlain_of_endsWork (StoreOp.endsWork_of_produces rfl hproduces)
  | _ =>
      cases payload with
      | acpBindingChanged | acpContextDispatched | harnessObservationRecorded =>
          simp [StoreOp.produces] at hproduces
      | _ => rfl

/-- One observation that a command was given. -/
theorem Observed.extended {op : StoreOp} {start : Store} {key : Option String}
    {item : SessionEntryPayload} (hobserved : Observed sessionId key item store store')
    (hstart : Extended op start store) (hobserves : (sessionId, key, item) ∈ op.observes) :
    Extended op start store' := by
  refine hstart.trans (hobserved.grows.mono ?_)
  rintro _ row ⟨rfl, rfl, hkey⟩
  refine .inr ⟨key, hobserves, ?_⟩
  cases key with
  | none => rfl
  | some value =>
      rw [Bool.eq_false_iff] at hkey ⊢
      exact fun hexists => hkey (hstart.keyed hexists)

theorem appendHarnessObservations_step {observations : List HarnessObservationInput} :
    BindingStep world (.appendHarnessObservations sessionId turnId observations) store
      (appendHarnessObservations world sessionId turnId observations store).2 := by
  have hrolls : RollsBack rollback
      (appendHarnessObservations world sessionId turnId observations) :=
    RollsBack.after rollback_rollback (undone_require rollback_self _ _)
      fun _ => rollsBack_transaction _
  refine .other (hrolls.related (Extended _) ?_ fun _ => .of_eq rfl)
  simp only [appendHarnessObservations, ensures_bind, ensures_require, ensures_transaction,
    ensures_validateActiveTurn, ensures_turnActor]
  intro _ _ actor _
  refine ensures_each (fun _ => Extended (.appendHarnessObservations sessionId turnId observations)
    store) (.of_eq rfl) ?_
  intro done observation rest middle hitems hextended
  refine ensures_mono ensures_appendHarnessObservation ?_
  intro _ last hobserved
  refine hobserved.extended hextended (List.mem_map.mpr ⟨observation, ?_, rfl⟩)
  rw [hitems]
  exact List.mem_append_right _ List.mem_cons_self

theorem appendAcpObservation_step {acpSessionId key : Option String}
    {observation : AcpObservation} :
    BindingStep world (.appendAcpObservation sessionId turnId acpSessionId key observation) store
      (appendAcpObservation world sessionId turnId acpSessionId key observation store).2 := by
  refine .other ((rollsBack_transaction _).related (Extended _) ?_ fun _ => .of_eq rfl)
  rw [ensures_transaction]
  refine ensures_mono ensures_recordObservation ?_
  intro _ last hobserved
  exact hobserved.extended (.of_eq rfl) (by simp [StoreOp.observes])

def SameTables (store store' : Store) : Prop :=
  store'.projection = store.projection

theorem sameTables_pruneClientEvents : Preserves SameTables (pruneClientEvents world) :=
  fun _ => rfl

theorem plain_step (hkeyed : store.projection.Keyed) {op : StoreOp} (hop : observing op = false) :
    BindingStep world op store (step world store op) :=
  .of_moves (step_moves world hkeyed op) fun payload => isPlain_of_produces hop payload

/-- What follows an observation touches no table either. -/
theorem Extended.of_silent {op : StoreOp} {start : Store} (hstart : Extended op start store)
    (hmoves : Moves world StoreOp.pruneClientEvents.footprint store store') :
    Extended op start store' := by
  have hprune : observing .pruneClientEvents = false := rfl
  have hgrows := hmoves.grows fun payload => isPlain_of_produces hprune payload
  exact hstart.trans (hgrows.mono fun _ _ => .inl)

theorem observationWithSignal_extended {op : StoreOp} {acpSessionId key : Option String}
    {observation : AcpObservation} {transient : Option RuntimeSignalPayload}
    (hobserves : (sessionId, key, observationItem turnId acpSessionId observation) ∈ op.observes) :
    Extended op store ((transaction (do
        recordAcpObservationTransaction world sessionId turnId acpSessionId key observation
        match transient with
        | none => return ()
        | some payload =>
            let channelOrigin ← Tx.expect (← select (activeTurnOrigin sessionId turnId))
              queryReturnedNoRows
            let id ← newId world
            let emittedAt ← utcNow world
            appendRuntimeSignalIn world
              ⟨id, sessionId, turnId, channelOrigin, emittedAt, payload⟩ key) >>= fun _ =>
      pruneClientEvents world) store).2 := by
  have hprune : ∀ _ : Unit, Preserves SameTables (pruneClientEvents world) :=
    fun _ => sameTables_pruneClientEvents
  have htrans : ∀ first second third, Extended op first second → SameTables second third →
      Extended op first third := by
    intro first second third hextended hsame
    exact hextended.trans (.of_eq (congrArg (·.acpSessionBindings) hsame)
      (congrArg (·.sessionEntries) hsame))
  refine related_bind htrans ?_ hprune
  refine (rollsBack_transaction _).related (Extended op) ?_ fun _ => .of_eq rfl
  rw [ensures_transaction, ensures_bind]
  refine ensures_mono ensures_recordObservation fun _ last hobserved => ?_
  have hextended := hobserved.extended (.of_eq rfl) hobserves
  cases transient with
  | none => simpa using hextended
  | some payload =>
      simp only [ensures_bind, ensures_select, ensures_expect, ensures_newId, ensures_utcNow]
      intro origin _
      have hdrew : Moves world StoreOp.pruneClientEvents.footprint last
          { last with drawn := last.drawn + 1 + 1 } := .single (.drew last _)
      refine ensures_mono (ensures_appendRuntimeSignalIn hdrew) ?_
      exact fun _ _ hmoves => hextended.of_silent hmoves

theorem appendAcpObservationWithClientEvent_step (hkeyed : store.projection.Keyed)
    {acpSessionId key : Option String} {observation : AcpObservation} {event : ClientEventKind} :
    BindingStep world
      (.appendAcpObservationWithClientEvent sessionId turnId acpSessionId key observation event)
      store (appendAcpObservationWithClientEvent world sessionId turnId acpSessionId key observation
        event store).2 := by
  cases observation with
  | assistantDelta delta messageId raw =>
      unfold appendAcpObservationWithClientEvent
      cases runtimePayloadFromClient event with
      | none => exact .of_eq rfl
      | some payload =>
          exact .other (Extended.of_silent (.of_eq rfl)
            (emitRuntimeSignalWithKey_reaches store hkeyed))
  | _ => exact .other (observationWithSignal_extended (List.mem_singleton.mpr rfl))

theorem bindAcpSession_step (honce : store.projection.BoundOnce) {input : AcpBindingInput} :
    BindingStep world (.bindAcpSession sessionId input) store
      (bindAcpSession world sessionId input store).2 := by
  have hsame : ∀ first second third,
      BindingStep world (.bindAcpSession sessionId input) first second →
      second = third → BindingStep world (.bindAcpSession sessionId input) first third := by
    rintro first second _ hstep rfl
    exact hstep
  have hreads : Preserves Eq (do
      Tx.expect (← select fun tables => tables.selectAcpBinding sessionId)
        (.invalidData "ACP Session binding was not persisted") : Action AcpSessionBinding) := by
    have htrans : ∀ first second third : Store, first = second → second = third →
        first = third := fun _ _ _ => Eq.trans
    exact Preserves.bind htrans (preserves_reads Eq.refl _) fun _ => preserves_expect Eq.refl _ _
  refine related_bind hsame ?_ fun _ => hreads
  refine (rollsBack_transaction _).related _ ?_ fun _ => .of_eq rfl
  rw [ensures_transaction]
  refine ensures_mono (ensures_rebind world sessionId input _ honce) ?_
  rintro _ store' ⟨binding, hdecision, hrebound, hevent⟩
  exact .bound sessionId input none binding rfl (fun _ h => by cases h)
    (.of_rebind hdecision hrebound hevent)

theorem bindAcpSessionWithObservations_step (honce : store.projection.BoundOnce)
    {input : AcpBindingInput} :
    BindingStep world (.bindAcpSessionWithObservations sessionId input turnId) store
      (bindAcpSessionWithObservations world sessionId input turnId store).2 := by
  refine (rollsBack_transaction _).related _ ?_ fun _ => .of_eq rfl
  refine ensures_mono (ensures_bindWithObservations honce) ?_
  rintro _ store' ⟨hknown, hnew⟩
  cases hkey : store.projection.observationExists sessionId (some (bindingKey turnId)) with
  | true => exact .of_eq (by rw [hknown hkey])
  | false =>
      obtain ⟨binding, hbound⟩ := hnew hkey
      refine .bound sessionId input (some turnId) binding rfl ?_ hbound
      rintro _ ⟨⟩
      exact hkey

theorem mark_step (honce : store.projection.BoundOnce) {acpSessionId : String} :
    BindingStep world (.markAcpContextDispatchedWithObservation sessionId turnId acpSessionId)
      store (markAcpContextDispatchedWithObservation world sessionId turnId acpSessionId
        store).2 := by
  refine (rollsBack_transaction _).related _ ?_ fun _ => .of_eq rfl
  refine ensures_mono (ensures_mark honce) ?_
  rintro _ store' ⟨hknown, hnew⟩
  cases hkey : store.projection.observationExists sessionId
      (some (dispatchKey acpSessionId)) with
  | true => exact .of_eq (by rw [hknown hkey])
  | false =>
      obtain ⟨binding, hmarked⟩ := hnew hkey
      exact .marked sessionId turnId acpSessionId binding rfl hmarked

theorem step_bindings (world : World) (hkeyed : store.projection.Keyed)
    (honce : store.projection.BoundOnce) (op : StoreOp) :
    BindingStep world op store (step world store op) := by
  cases op with
  | bindAcpSession sessionId input =>
      rw [step, exec, discard_snd]
      exact bindAcpSession_step honce
  | bindAcpSessionWithObservations => exact bindAcpSessionWithObservations_step honce
  | markAcpContextDispatchedWithObservation => exact mark_step honce
  | appendHarnessObservations => exact appendHarnessObservations_step
  | appendAcpObservation => exact appendAcpObservation_step
  | appendAcpObservationWithClientEvent => exact appendAcpObservationWithClientEvent_step hkeyed
  | _ => exact plain_step hkeyed rfl

/-! ## Accounted commands -/

/-- What a command must find for the flag to keep standing for a dispatch
record. -/
structure Accounted (world : World) (store : Store) (op : StoreOp) : Prop where
  /-- An observation of a dispatch comes after the flag was set. -/
  observed : ∀ sessionId key item, (sessionId, key, item) ∈ op.observes →
    store.projection.observationExists sessionId key = false →
    ∀ binding, store.projection.selectAcpBinding sessionId = some binding →
      binding.dispatch.recordedBy item = true → binding.contextDispatched = true
  /-- A repeated binding does not bring a dispatch that its flag denies. -/
  repeated : ∀ sessionId input turnId, op.binds = some (sessionId, input, some turnId) →
    repeats store.projection sessionId input → input.contextDispatched = true →
    store.projection.observationExists sessionId (some (bindingKey turnId)) = false →
    store.projection.observationExists sessionId (some (dispatchKey input.acpSessionId)) = false →
    ∀ binding, store.projection.selectAcpBinding sessionId = some binding →
      binding.dispatch.recordedBy (dispatchItem world turnId input) = true →
      binding.contextDispatched = true
  /-- A dispatch that a change brings is on record, or can be recorded. -/
  dispatched : ∀ sessionId input turn, op.binds = some (sessionId, input, turn) →
    ¬repeats store.projection sessionId input → input.contextDispatched = true →
    (∀ turnId, turn = some turnId →
      store.projection.observationExists sessionId (some (bindingKey turnId)) = false) →
    store.projection.dispatchRecorded sessionId (input.dispatch world) = true ∨
      turn ≠ none ∧ store.projection.observationExists sessionId
        (some (dispatchKey input.acpSessionId)) = false
  /-- A change without a dispatch is to a context that was not dispatched. -/
  undispatched : ∀ sessionId input turn, op.binds = some (sessionId, input, turn) →
    ¬repeats store.projection sessionId input → input.contextDispatched = false →
    (∀ turnId, turn = some turnId →
      store.projection.observationExists sessionId (some (bindingKey turnId)) = false) →
    store.projection.dispatchRecorded sessionId (input.dispatch world) = false
  /-- A dispatch that is marked again has left the flag set. -/
  marked : ∀ sessionId turnId acpSessionId,
    op = .markAcpContextDispatchedWithObservation sessionId turnId acpSessionId →
    store.projection.observationExists sessionId (some (dispatchKey acpSessionId)) = true →
    (store.projection.selectAcpBinding sessionId).any (·.contextDispatched) = true

/-- The flag of a bound Session agrees with its timeline when the command was
accounted for. -/
theorem Bound.coherent {op : StoreOp} {input : AcpBindingInput} {turn : Option TurnId}
    {binding : AcpSessionBinding} (hcoherent : store.projection.Coherent)
    (honce : store.projection.BoundOnce) (haccounted : Accounted world store op)
    (hbinds : op.binds = some (sessionId, input, turn))
    (hnew : ∀ turnId, turn = some turnId →
      store.projection.observationExists sessionId (some (bindingKey turnId)) = false)
    (hbound : Bound world sessionId input turn store store' binding) :
    store'.projection.Coherent := by
  obtain ⟨middle, hrebound, hgrows⟩ := hbound.rebound
  have hsession := hbound.decision.session_eq
  rw [← hsession] at hgrows
  refine hcoherent.rebound hrebound hgrows ?_
  rw [hsession, hbound.recorded]
  by_cases hrepeats : repeats store.projection sessionId input
  · have hselected := hbound.decision.of_repeats hrepeats
    have hmem := (honce.selectAcpBinding_iff.mp hselected).1
    rw [hcoherent binding hmem, hsession]
    constructor
    · exact .inl
    · rintro (hrecorded | ⟨turnId, rfl, hdispatched, hkey, hrecords⟩)
      · exact hrecorded
      · rw [← hsession, ← hcoherent binding hmem]
        exact haccounted.repeated sessionId input turnId hbinds hrepeats hdispatched
          (hnew turnId rfl) hkey binding hselected hrecords
  · obtain ⟨hdispatch, hflag⟩ := hbound.decision.of_change hrepeats
    rw [hdispatch, hflag]
    constructor
    · intro hdispatched
      rcases haccounted.dispatched sessionId input turn hbinds hrepeats hdispatched hnew with
        hrecorded | ⟨hturn, hkey⟩
      · exact .inl hrecorded
      · obtain ⟨turnId, rfl⟩ := Option.ne_none_iff_exists'.mp hturn
        exact .inr ⟨turnId, rfl, hdispatched, hkey, recordedBy_dispatchItem turnId input⟩
    · rintro (hrecorded | ⟨turnId, -, hdispatched, -⟩)
      · by_contra hnot
        have hnone := haccounted.undispatched sessionId input turn hbinds hrepeats
          (by simpa using hnot) hnew
        rw [hrecorded] at hnone
        cases hnone
      · exact hdispatched

theorem Marked.coherent {acpSessionId : String} {binding : AcpSessionBinding}
    (hcoherent : store.projection.Coherent) (honce : store.projection.BoundOnce)
    (hmarked : Marked sessionId acpSessionId store store' binding) :
    store'.projection.Coherent := by
  obtain ⟨middle, hrebound, hgrows⟩ := hmarked.rebound
  obtain ⟨-, hsession⟩ := honce.selectAcpBinding_iff.mp hmarked.selected
  rw [← hsession] at hgrows
  refine hcoherent.rebound hrebound hgrows (iff_of_true rfl ?_)
  change store'.projection.dispatchRecorded binding.sessionId binding.dispatch = true
  rw [hsession]
  exact hmarked.recorded

theorem BindingStep.once {op : StoreOp} (hstep : BindingStep world op store store')
    (honce : store.projection.BoundOnce) : store'.projection.BoundOnce := by
  cases hstep with
  | other hextended =>
      rw [BoundOnce, hextended.bindings_eq]
      exact honce
  | bound _ _ _ _ _ _ hbound =>
      obtain ⟨middle, hrebound, hgrows⟩ := hbound.rebound
      rw [BoundOnce, hgrows.bindings_eq]
      exact hrebound.once
  | marked _ _ _ _ _ hmarked =>
      obtain ⟨middle, hrebound, hgrows⟩ := hmarked.rebound
      rw [BoundOnce, hgrows.bindings_eq]
      exact hrebound.once

theorem BindingStep.coherent {op : StoreOp} (hstep : BindingStep world op store store')
    (honce : store.projection.BoundOnce) (hcoherent : store.projection.Coherent)
    (haccounted : Accounted world store op) : store'.projection.Coherent := by
  cases hstep with
  | other hextended =>
      refine hcoherent.grows hextended ?_
      rintro binding hbinding row (hnone | ⟨key, hobserves, hkey⟩) hrecords
      · rw [hnone] at hrecords
        cases hrecords
      · exact haccounted.observed binding.sessionId key _ hobserves hkey binding
          (honce.selectAcpBinding_iff.mpr ⟨hbinding, rfl⟩) hrecords
  | bound _ _ _ _ hbinds hnew hbound => exact hbound.coherent hcoherent honce haccounted hbinds hnew
  | marked _ _ _ _ _ hmarked => exact hmarked.coherent hcoherent honce

theorem run_boundOnce (world : World) (ops : List StoreOp) :
    (run world ops).projection.BoundOnce := by
  have hrun := run_invariant world
    (fun store => store.projection.Keyed ∧ store.projection.BoundOnce)
    ⟨keyed_empty, by simp [BoundOnce, Store.empty, Projection.empty]⟩
    (fun store op hstore => ⟨step_keyed hstore.1 op,
      (step_bindings world hstore.1 hstore.2 op).once hstore.2⟩) ops
  exact hrun.2

/-- Every command of the run is accounted for where it runs. -/
def AccountedRun (world : World) (ops : List StoreOp) : Prop :=
  ∀ before op after, ops = before ++ op :: after → Accounted world (run world before) op

theorem run_coherent (world : World) (ops : List StoreOp) (haccounted : AccountedRun world ops) :
    (run world ops).projection.Coherent := by
  induction ops using List.reverseRecOn with
  | nil => exact fun binding hbinding => by simp [run, runFrom, Store.empty, Projection.empty] at hbinding
  | append_singleton ops op ih =>
      have hbefore : (run world ops).projection.Coherent := by
        apply ih
        rintro before op' after rfl
        exact haccounted before op' (after ++ [op]) (by simp)
      have hop : Accounted world (run world ops) op := haccounted ops op [] rfl
      have honce := run_boundOnce world ops
      have hrun : run world (ops ++ [op]) = step world (run world ops) op := by
        simp [run, runFrom]
      rw [hrun]
      exact (step_bindings world (run_keyed world ops) honce op).coherent honce hbefore hop

/-- After a mark that returns, the flag is set exactly when the dispatch was new
or the flag was set before. -/
theorem Marked.flag {acpSessionId : String} {binding : AcpSessionBinding}
    (honce : store.projection.BoundOnce)
    (hmarked : Marked sessionId acpSessionId store store' binding) :
    (store'.projection.selectAcpBinding sessionId).any (·.contextDispatched) = true := by
  obtain ⟨middle, hrebound, hgrows⟩ := hmarked.rebound
  obtain ⟨-, hsession⟩ := honce.selectAcpBinding_iff.mp hmarked.selected
  have hselected : store'.projection.selectAcpBinding sessionId =
      some { binding with contextDispatched := true } := by
    rw [selectAcpBinding, hgrows.bindings_eq, ← hsession]
    exact hrebound.selected
  rw [hselected]
  rfl

/-- ACP bindings over whole runs.  A binding that a command decides is the row,
the journal entry and the observation alike; a mark that returns leaves the flag
set unless a dispatch was recorded under its key already; and the flag stands for
a dispatch record as long as every command is accounted for. -/
theorem acp_bindings (world : World) (ops : List StoreOp) :
    let store := run world ops
    let tables := store.projection
    (∀ op sessionId input turn, op.binds = some (sessionId, input, turn) →
      (∀ turnId, turn = some turnId →
        tables.observationExists sessionId (some (bindingKey turnId)) = false) →
      ∀ store', Runs (exec world op) store () store' → ∃ binding,
        BindingDecision world tables sessionId input binding ∧
        store'.projection.selectAcpBinding sessionId = some binding ∧
        (∃ event rest, store'.journalEntries = store.journalEntries ++ event :: rest ∧
          event.subject = .session sessionId ∧ event.payload = .acpBindingChanged binding) ∧
        ∀ turnId, turn = some turnId → ∃ row ∈ store'.projection.timeline sessionId,
          row.observationKey = some (bindingKey turnId) ∧
          row.entry.payload = observationItem turnId (some binding.acpSessionId)
            (.bindingChanged input.transition)) ∧
    (∀ sessionId turnId acpSessionId store',
      Runs (markAcpContextDispatchedWithObservation world sessionId turnId acpSessionId) store ()
        store' →
      ((store'.projection.selectAcpBinding sessionId).any (·.contextDispatched) = true ↔
        (tables.observationExists sessionId (some (dispatchKey acpSessionId)) = true →
          (tables.selectAcpBinding sessionId).any (·.contextDispatched) = true))) ∧
    (AccountedRun world ops → ∀ binding ∈ tables.acpSessionBindings,
      binding.contextDispatched = true ↔
        tables.dispatchRecorded binding.sessionId binding.dispatch = true) := by
  intro store tables
  have honce : tables.BoundOnce := run_boundOnce world ops
  refine ⟨?_, ?_, run_coherent world ops⟩
  · intro op sessionId input turn hbinds hnew store' hrun
    obtain ⟨binding, hbound⟩ : ∃ binding,
        Bound world sessionId input turn store store' binding := by
      cases op with
      | bindAcpSession sessionId input =>
          cases hbinds
          have hbound : ensures (exec world (.bindAcpSession sessionId input)) store
              fun _ store' => ∃ binding,
                Bound world sessionId input none store store' binding := by
            rw [exec, ensures_discard]
            exact ensures_bindAcpSession honce
          exact hrun.ensures.mp hbound
      | bindAcpSessionWithObservations sessionId input turnId =>
          cases hbinds
          exact (hrun.ensures.mp (ensures_bindWithObservations honce)).2 (hnew turnId rfl)
      | _ => cases hbinds
    refine ⟨binding, hbound.decision, ?_, hbound.journal, hbound.observation⟩
    obtain ⟨middle, hrebound, hgrows⟩ := hbound.rebound
    rw [selectAcpBinding, hgrows.bindings_eq, ← hbound.decision.session_eq]
    exact hrebound.selected
  · intro sessionId turnId acpSessionId store' hrun
    obtain ⟨hknown, hnew⟩ := hrun.ensures.mp (ensures_mark honce)
    cases hkey : tables.observationExists sessionId (some (dispatchKey acpSessionId)) with
    | true =>
        rw [hknown hkey]
        simp [tables]
    | false =>
        obtain ⟨binding, hmarked⟩ := hnew hkey
        exact iff_of_true (hmarked.flag honce) (fun h => by cases h)

/-- A binding is replaced under the ACP session and the context that were
dispatched before: its flag is clear beside the record, and marking the dispatch
again returns and leaves it clear. -/
theorem mark_of_rebound_session :
    let context : CommandContext := { commandId := "1", actor := .system, correlationId := none }
    let sessionId : SessionId := ⟨"10"⟩
    let input : AcpBindingInput :=
      { hostId := ⟨"1"⟩, harness := "codex", definitionHash := "d", acpSessionId := "s"
        transition := .new, context := { version := 1 }, contextText := "text"
        channel := .firstPrompt, contextDispatched := false }
    let ops : List StoreOp :=
      [.initializeHub context "hub" "a" "b" "c", .createAgent context "mews" "soul" "native" ⟨"1"⟩,
        .createSession ⟨"7"⟩ ⟨"1"⟩ "/",
        .bindAcpSessionWithObservations sessionId input ⟨"t1"⟩,
        .markAcpContextDispatchedWithObservation sessionId ⟨"t1"⟩ "s",
        .bindAcpSessionWithObservations sessionId
          { input with transition := .replace .historyDiverged } ⟨"t2"⟩]
    let store := run World.numbered ops
    let marked := markAcpContextDispatchedWithObservation World.numbered sessionId ⟨"t2"⟩ "s" store
    (store.projection.acpSessionBindings.any fun binding => binding.contextDispatched) = false ∧
    (store.projection.acpSessionBindings.all fun binding =>
      store.projection.dispatchRecorded sessionId binding.dispatch) = true ∧
    marked.1.isOk = true ∧
    (marked.2.projection.selectAcpBinding sessionId).map (·.contextDispatched) = some false := by
  decide +kernel

end Store

end Mews
