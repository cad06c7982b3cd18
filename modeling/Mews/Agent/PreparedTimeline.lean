import Mews.Agent.PreparedRequests
import Mews.Store.Acceptance
import Mews.Store.Bindings
import Mews.Store.RawResults

/-!
# All or none of a prepared request

The observations of a request are appended in one transaction.  Each has a key of its own
that no other observation has, so that either all of them are in the timeline or none.
-/

namespace Mews

open Protocol Tx

namespace Store

variable {world : World} {store store' : Store} {sessionId : SessionId} {turnId : TurnId}

/-- The observations were added to the timeline, and nothing else. -/
def Added (turnId : TurnId) (sessionId : SessionId) (observations : List HarnessObservationInput)
    (store store' : Store) : Prop :=
  ∃ rows, store'.projection.timeline sessionId = store.projection.timeline sessionId ++ rows ∧
    rows.map (fun row => (row.observationKey, row.entry.payload)) =
      observations.map fun observation => (observation.idempotencyKey, observation.payload turnId)

theorem Added.append {before after : List HarnessObservationInput} {middle : Store}
    (hbefore : Added turnId sessionId before store middle)
    (hafter : Added turnId sessionId after middle store') :
    Added turnId sessionId (before ++ after) store store' := by
  obtain ⟨first, hfirst, hrows⟩ := hbefore
  obtain ⟨second, hsecond, hrows'⟩ := hafter
  refine ⟨first ++ second, ?_, ?_⟩
  · rw [hsecond, hfirst, List.append_assoc]
  · rw [List.map_append, List.map_append, hrows, hrows']

/-- The keys of the timeline are those from before and those of the observations. -/
theorem Added.observationExists {observations : List HarnessObservationInput} {key : String}
    (hadded : Added turnId sessionId observations store store')
    (hexists : store'.projection.observationExists sessionId (some key) = true) :
    store.projection.observationExists sessionId (some key) = true ∨
      some key ∈ observations.map (·.idempotencyKey) := by
  obtain ⟨rows, htimeline, hrows⟩ := hadded
  obtain ⟨row, hrow, hkey⟩ := Projection.observationExists_iff.mp hexists
  rw [htimeline, List.mem_append] at hrow
  apply hrow.imp
  · intro hbefore
    exact Projection.observationExists_iff.mpr ⟨row, hbefore, hkey⟩
  · intro hnew
    have hpair : (row.observationKey, row.entry.payload) ∈ observations.map fun observation =>
        (observation.idempotencyKey, observation.payload turnId) :=
      hrows ▸ List.mem_map_of_mem hnew
    obtain ⟨observation, hmem, hsame⟩ := List.mem_map.mp hpair
    exact List.mem_map.mpr ⟨observation, hmem, (Prod.mk.inj hsame).1.trans hkey⟩

theorem ensures_addHarnessObservation {actor : EventActor} {observation : HarnessObservationInput}
    {key : String} (hkey : observation.idempotencyKey = some key)
    (hfresh : store.projection.observationExists sessionId (some key) = false) :
    ensures (appendHarnessObservationIn world sessionId turnId actor observation) store
      fun _ store' => Added turnId sessionId [observation] store store' := by
  rw [← hkey] at hfresh
  simp only [appendHarnessObservationIn, ensures_bind, ensures_select, ensures_ite, ensures_pure,
    ensures_newId]
  refine ⟨fun hknown => absurd hknown (by simp [hfresh]), fun _ => ?_⟩
  have hproduces : ∀ entryId, Footprint.unrestricted.produces (.harnessObservationRecorded turnId
      entryId observation.harnessSessionId observation.kind observation.data) := fun _ => trivial
  refine ensures_mono (ensures_appendSessionEventCorrelated trivial (hproduces _)) ?_
  intro event store' hrecorded
  obtain ⟨delivery, hproject⟩ := hrecorded.projects
  have hchange := Projection.projectSession_change hrecorded.subject_eq hproject
  have hentry : event.payload.timelineEntry =
      some ({ uuid := world.uuid store.drawn }, observation.payload turnId, false) := by
    rw [hrecorded.payload_eq]
    rfl
  obtain ⟨entry, hplaced⟩ := hchange.of_timelineEntry hentry
  refine ⟨[⟨entry, false, Projection.observationKeyOf event (observation.payload turnId)⟩], ?_, ?_⟩
  · rw [hplaced.timeline_eq, if_pos rfl]
  · have hobservation : (observation.payload turnId).isObservation = true := rfl
    have hrowKey : Projection.observationKeyOf event (observation.payload turnId) = some key := by
      rw [Projection.observationKeyOf, if_pos hobservation, hrecorded.correlation_eq, hkey]
      rfl
    rw [List.map_singleton, List.map_singleton, hrowKey, hkey, hplaced.payload_eq]

/-- A batch of new observations is added as a whole or not at all. -/
theorem appendHarnessObservations_added {observations : List HarnessObservationInput}
    (hkeys : ∀ observation ∈ observations, ∃ key, observation.idempotencyKey = some key ∧
      store.projection.observationExists sessionId (some key) = false) :
    Added turnId sessionId [] store
        (appendHarnessObservations world sessionId turnId observations store).2 ∨
      Added turnId sessionId observations store
        (appendHarnessObservations world sessionId turnId observations store).2 := by
  have hrolls : RollsBack rollback
      (appendHarnessObservations world sessionId turnId observations) :=
    RollsBack.after rollback_rollback (undone_require rollback_self _ _)
      fun _ => rollsBack_transaction _
  apply hrolls.related (fun store store' => Added turnId sessionId [] store store' ∨
    Added turnId sessionId observations store store')
  · simp only [appendHarnessObservations, ensures_bind, ensures_require, ensures_transaction,
      ensures_validateActiveTurn, ensures_turnActor]
    intro hnodup _ actor _
    refine ensures_mono (ensures_each
      (fun done state => Added turnId sessionId done store state) ?_ ?_) fun _ _ => Or.inr
    · exact ⟨[], (List.append_nil _).symm, rfl⟩
    · intro done observation rest middle hitems hadded
      have hmem : observation ∈ observations := by
        rw [hitems]
        exact List.mem_append_right _ List.mem_cons_self
      obtain ⟨key, hkey, hfresh⟩ := hkeys observation hmem
      have hunknown : middle.projection.observationExists sessionId (some key) = false := by
        rw [Bool.eq_false_iff]
        intro hexists
        rcases hadded.observationExists hexists with hbefore | hdone
        · exact Bool.eq_false_iff.mp hfresh hbefore
        · -- The keys of the batch are all different.
          obtain ⟨other, hother, hsame⟩ := List.mem_map.mp hdone
          rw [hitems, List.filterMap_append, List.filterMap_cons, hkey] at hnodup
          apply List.disjoint_of_nodup_append hnodup
          · exact List.mem_filterMap.mpr ⟨other, hother, hsame⟩
          · exact List.mem_cons_self
      exact ensures_mono (ensures_addHarnessObservation hkey hunknown)
        fun _ _ hnow => hadded.append hnow
  · intro reached
    exact Or.inl ⟨[], (List.append_nil _).symm, rfl⟩

end Store

/-! ## Requests in the timeline -/

theorem idempotencyKey_preparedRequestObservations {encoder : RequestEncoder}
    {request : ModelRequest} {turnId : TurnId} {requestId : OperationId}
    {observation : HarnessObservationInput}
    (hmem : observation ∈ preparedRequestObservations encoder request turnId requestId) :
    ∃ key, observation.idempotencyKey = some key := by
  rw [preparedRequestObservations] at hmem
  dsimp only at hmem
  split_ifs at hmem
  · rw [List.mem_singleton.mp hmem]
    exact ⟨_, rfl⟩
  · rcases List.mem_cons.mp hmem with rfl | hchunk
    · exact ⟨_, rfl⟩
    · obtain ⟨index, -, rfl⟩ := List.mem_map.mp hchunk
      exact ⟨_, rfl⟩

/-- What is recorded of a request holds the request and stays in the timeline, or nothing is
recorded of it. -/
def AllOrNone (world : World) (encoder : RequestEncoder) (request : ModelRequest)
    (sessionId : SessionId) (turnId : TurnId) (before after : Store) : Prop :=
  ∃ rows, after.projection.timeline sessionId = before.projection.timeline sessionId ++ rows ∧
    (rows = [] ∨ Holds encoder request turnId (rows.map fun row => row.entry.payload)) ∧
    ∀ later, ∀ row ∈ rows,
      row ∈ (Store.runFrom world after later).projection.timeline sessionId

/-- The observations of a request hold it, are no larger than a Session item may be, and are
recorded all or none. -/
structure RecordedWhole (world : World) (encoder : RequestEncoder) (request : ModelRequest)
    (sessionId : SessionId) (turnId : TurnId) (requestId : OperationId) (before : Store) :
    Prop where
  holds : Holds encoder request turnId
    ((preparedRequestObservations encoder request turnId requestId).map (·.payload turnId))
  valid : ∀ observation ∈ preparedRequestObservations encoder request turnId requestId,
    validateSessionItem world (observation.payload turnId) = .ok ()
  allOrNone : AllOrNone world encoder request sessionId turnId before
    (Store.step world before (.appendHarnessObservations sessionId turnId
      (preparedRequestObservations encoder request turnId requestId)))

namespace Store

variable {world : World} {store : Store} {sessionId : SessionId} {turnId : TurnId}
  {requestId : OperationId} {encoder : RequestEncoder} {request : ModelRequest}

/-- Rows of the timeline stay there in every later run. -/
theorem timeline_runFrom (hkeyed : store.projection.Keyed) (later : List StoreOp)
    {row : EntryRow} (hrow : row ∈ store.projection.timeline sessionId) :
    row ∈ (runFrom world store later).projection.timeline sessionId := by
  rw [Projection.timeline, List.mem_filter] at hrow ⊢
  exact ⟨((runFrom_moves world hkeyed later).keeps hkeyed).entries hrow.1, hrow.2⟩

theorem Added.allOrNone {before after : Store} (hkeyed : after.projection.Keyed)
    (hadded : Added turnId sessionId [] before after ∨
      Added turnId sessionId (preparedRequestObservations encoder request turnId requestId)
        before after) :
    AllOrNone world encoder request sessionId turnId before after := by
  rcases hadded with ⟨rows, htimeline, hrows⟩ | ⟨rows, htimeline, hrows⟩
  · obtain rfl := List.map_eq_nil_iff.mp hrows
    exact ⟨[], htimeline, Or.inl rfl, fun _ row hrow => absurd hrow List.not_mem_nil⟩
  · have hpayloads : rows.map (fun row => row.entry.payload) =
        (preparedRequestObservations encoder request turnId requestId).map (·.payload turnId) := by
      have hsnd := congrArg (List.map Prod.snd) hrows
      rw [List.map_map, List.map_map] at hsnd
      exact hsnd
    refine ⟨rows, htimeline, Or.inr ?_, ?_⟩
    · rw [hpayloads]
      exact holds_preparedRequestObservations encoder request turnId requestId
    · intro later row hrow
      apply timeline_runFrom hkeyed later
      rw [htimeline]
      exact List.mem_append_right _ hrow

theorem allOrNone_appendHarnessObservations (hkeyed : store.projection.Keyed)
    (hfresh : ∀ observation ∈ preparedRequestObservations encoder request turnId requestId,
      store.projection.observationExists sessionId observation.idempotencyKey = false) :
    AllOrNone world encoder request sessionId turnId store
      (step world store (.appendHarnessObservations sessionId turnId
        (preparedRequestObservations encoder request turnId requestId))) := by
  have hkeys : ∀ observation ∈ preparedRequestObservations encoder request turnId requestId,
      ∃ key, observation.idempotencyKey = some key ∧
        store.projection.observationExists sessionId (some key) = false := by
    intro observation hmem
    obtain ⟨key, hkey⟩ := idempotencyKey_preparedRequestObservations hmem
    exact ⟨key, hkey, hkey ▸ hfresh observation hmem⟩
  have hran : step world store (.appendHarnessObservations sessionId turnId
      (preparedRequestObservations encoder request turnId requestId)) =
      (appendHarnessObservations world sessionId turnId
        (preparedRequestObservations encoder request turnId requestId) store).2 := rfl
  apply Added.allOrNone (step_keyed hkeyed _)
  rw [hran]
  exact appendHarnessObservations_added hkeys

theorem validateSessionItem_iff {payload : SessionEntryPayload}
    (hitem : world.itemBytes payload = payload.bytes) :
    validateSessionItem world payload = .ok () ↔ payload.bytes ≤ maxSessionItemBytes := by
  rw [validateSessionItem, hitem, demand]
  split_ifs with hfits
  · exact iff_of_true rfl hfits
  · refine iff_of_false ?_ hfits
    intro hok
    cases hok

/-- The observations of a request are recorded whole if and only if the request fits into one
of them, or the name of its model leaves room in the manifest. -/
theorem prepared_request_recorded_iff (earlier : List StoreOp)
    (hitem : ∀ payload, world.itemBytes payload = payload.bytes)
    (hsha : escapedBytes (encoder.sha256 (encoder.toVec request)) = 64)
    (hlength : (encoder.toVec request).length < 2 ^ 64)
    (hid : escapedBytes requestId.uuid = 36)
    (hfresh : ∀ observation ∈ preparedRequestObservations encoder request turnId requestId,
      (run world earlier).projection.observationExists sessionId observation.idempotencyKey =
        false) :
    RecordedWhole world encoder request sessionId turnId requestId (run world earlier) ↔
      ((directObservation request requestId).payload turnId).bytes ≤ maxSessionItemBytes ∨
        ModelFits encoder request := by
  have hvalid := fun payload => validateSessionItem_iff (hitem payload)
  rw [← preparedRequestObservations_fit_iff hsha hlength hid]
  constructor
  · intro hrecorded observation hmem
    exact (hvalid _).mp (hrecorded.valid observation hmem)
  · intro hfit
    exact
      { holds := holds_preparedRequestObservations encoder request turnId requestId
        valid := fun observation hmem => (hvalid _).mpr (hfit observation hmem)
        allOrNone := allOrNone_appendHarnessObservations (run_keyed world earlier) hfresh }

/-- Entries are as long as they are encoded. -/
def measured : World := { World.numbered with itemBytes := SessionEntryPayload.bytes }

/-- A request that says nothing but its model. -/
def requestTo (model : String) : ModelRequest where
  model := model
  reasoning := none
  system := "Answer."
  messages := []
  tools := []
  continuation := none

/-- The JSON text of such a request, and its checksum. -/
def encoderTo (digest : String) : RequestEncoder where
  toVec request := ("\x7b\"model\":\"" ++ request.model ++
    "\",\"system\":\"Answer.\",\"messages\":[],\"tools\":[]\x7d").toByteArray.data.toList
  sha256 _ := digest

def prepared : OperationId := ⟨"0198c0de-0000-7000-8000-000000000001"⟩

theorem small_request_recorded :
    RecordedWhole measured
      (encoderTo "90eea725c21a05df38ebf4a21a32829a03b8d6c55a4a2e87bbf04e986f0ca8df")
      (requestTo "gpt") ⟨"10"⟩ ⟨"14"⟩ prepared (run measured startedCall) :=
  (prepared_request_recorded_iff startedCall (fun _ => rfl) (by decide) (by decide) (by decide)
    (by decide +kernel)).mpr (Or.inl (by decide +kernel))

variable (turnId requestId) in
/-- The request is longer than the name of its model. -/
theorem lt_directObservation (model : String) :
    escapedBytes model < ((directObservation (requestTo model) requestId).payload turnId).bytes := by
  have hvalue : (requestTo model).toValue.bytes = objectBytes
      [("messages", (Value.array []).bytes), ("model", textBytes model),
        ("system", textBytes "Answer."), ("tools", (Value.array []).bytes)] := by
    have hmembers : (requestTo model).toValue = .object [("messages", .array []),
        ("model", .string model), ("system", .string "Answer."), ("tools", .array [])] := rfl
    rw [hmembers, bytes_object (by simp only [List.forall_mem_cons]; decide)]
    rfl
  have hname : textBytes model ≤ (requestTo model).toValue.bytes := by
    rw [hvalue]
    exact le_objectBytes "model" (by simp)
  calc
    escapedBytes model < textBytes model := Nat.lt_add_of_pos_right (by decide)
    _ ≤ (requestTo model).toValue.bytes := hname
    _ ≤ _ := by
      rw [bytes_payload rfl]
      exact Nat.le_add_left _ _

/-- The manifest has the name of the model too. -/
theorem not_recordedWhole_of_name {digest model : String} {ops : List StoreOp}
    (hdigest : escapedBytes digest = 64) (hid : escapedBytes requestId.uuid = 36)
    (hname : maxSessionItemBytes ≤ escapedBytes model) :
    ¬RecordedWhole measured (encoderTo digest) (requestTo model) sessionId turnId requestId
      (run measured ops) := by
  intro hrecorded
  have hdirect := hname.trans_lt
    (lt_directObservation turnId requestId model)
  have hmem : preparedManifest (encoderTo digest) (requestTo model) requestId ∈
      preparedRequestObservations (encoderTo digest) (requestTo model) turnId requestId := by
    rw [preparedRequestObservations]
    dsimp only
    rw [if_neg hdirect.not_ge]
    exact List.mem_cons_self
  have hvalid := hrecorded.valid _ hmem
  rw [validateSessionItem_iff rfl, bytes_preparedManifest hdigest hid] at hvalid
  change 313 + escapedBytes model + _ + _ ≤ _ at hvalid
  omega

/-- A name that fills a Session item. -/
theorem long_model_refused :
    ¬RecordedWhole measured
      (encoderTo "d3cec4a620a637e2f1a17b320c9d19dd3530c44d18b5bfb36cda4c841667ff3c")
      (requestTo (String.ofList (List.replicate 716800 'x'))) ⟨"10"⟩ ⟨"14"⟩ prepared
      (run measured startedCall) :=
  not_recordedWhole_of_name (by decide) (by decide) (escapedBytes_replicate 716800).ge

end Store

end Mews
