import Mews.Store.Hub

/-!
# Invitations

Consuming an invitation marks it and enrolls a Host in one transaction.  The
journal tells which invitation enrolled which Host, and after every run of the
Store that account matches the tables.
-/

namespace Mews

open Protocol Table Tx

/-- The entries that enroll a Host, consume an invitation or create the
installation. -/
def Protocol.JournalEvent.enrolls : JournalEvent → Bool
  | .hostEnrolled .. | .hostInvitationConsumed .. | .installationCreated .. => true
  | _ => false

def StoreOp.enrolls : StoreOp → Bool
  | .consumeInvitation .. | .initializeHub .. => true
  | _ => false

theorem StoreOp.enrolls_of_produces {op : StoreOp} {payload : JournalEvent}
    (hproduces : op.produces payload) (henrolls : payload.enrolls = true) :
    op.enrolls = true := by
  have hwork : payload.endsWork = false := by
    cases payload <;> first | rfl | cases henrolls
  cases op with
  | consumeInvitation | initializeHub => rfl
  | finishEffect | finishTurnWithStopReason | recoverInterruptedWork =>
      rw [StoreOp.endsWork_of_produces rfl hproduces] at hwork
      cases hwork
  | _ =>
      cases payload with
      | hostEnrolled | hostInvitationConsumed | installationCreated =>
          simp [StoreOp.produces, observationPayload] at hproduces
      | _ => cases henrolls

namespace Projection

open Store

variable {world : World} {tables tables' : Projection} {event : JournalEntry}

def hostIds (tables : Projection) : List HostId := tables.hosts.map fun row => row.host.id

/-- No Host is enrolled and no invitation consumed; invitations may be added. -/
structure Steady (tables tables' : Projection) : Prop where
  hosts : tables'.hostIds = tables.hostIds
  installation : tables'.installation.isSome = tables.installation.isSome
  invitations : ∃ added, tables'.invitations = tables.invitations ++ added ∧
    ∀ row ∈ added, row.consumedAt = none ∧ ∀ other ∈ tables.invitations, other.id ≠ row.id

theorem Steady.of_eq (hhosts : tables'.hosts = tables.hosts)
    (hinstallation : tables'.installation = tables.installation)
    (hinvitations : tables'.invitations = tables.invitations) : Steady tables tables' where
  hosts := by rw [hostIds, hhosts, hostIds]
  installation := by rw [hinstallation]
  invitations := ⟨[], by simp [hinvitations], by simp⟩

theorem Steady.trans {first second third : Projection} (hfirst : Steady first second)
    (hsecond : Steady second third) : Steady first third where
  hosts := hsecond.hosts.trans hfirst.hosts
  installation := hsecond.installation.trans hfirst.installation
  invitations := by
    obtain ⟨added, hadded, hnew⟩ := hfirst.invitations
    obtain ⟨later, hlater, hnew'⟩ := hsecond.invitations
    refine ⟨added ++ later, by rw [hlater, hadded, List.append_assoc], ?_⟩
    intro row hrow
    rcases List.mem_append.mp hrow with hrow | hrow
    · exact hnew row hrow
    · have hfresh := (hnew' row hrow).2
      rw [hadded] at hfresh
      exact ⟨(hnew' row hrow).1, fun other hother => hfresh other (List.mem_append_left _ hother)⟩

theorem hostIds_updateWhere {matched : HostRow → Bool} {change : HostRow → HostRow}
    (hchange : ∀ row, (change row).host.id = row.host.id) :
    { tables with hosts := updateWhere matched change tables.hosts }.hostIds = tables.hostIds :=
  map_updateWhere hchange

theorem steady_of_host (hproject : tables.projectHost event = .ok tables')
    (henrolls : event.payload.enrolls = false) : Steady tables tables' := by
  rw [projectHost] at hproject
  split at hproject
  · rename_i host hpayload
    rw [hpayload] at henrolls
    cases henrolls
  · simp only [revokeHost, bind_eq_ok, exists_unit, demand_eq_ok, pure_eq_ok] at hproject
    obtain ⟨-, rfl⟩ := hproject
    exact ⟨hostIds_updateWhere fun _ => rfl, rfl, [], by simp, by simp⟩
  · rename_i id expiresAt secretHash hpayload
    simp only [createInvitation, bind_eq_ok, exists_unit, demand_eq_ok, pure_eq_ok] at hproject
    obtain ⟨hnew, rfl⟩ := hproject
    refine ⟨rfl, rfl, [{ id, secretHash, expiresAt, consumedAt := none }], rfl, ?_⟩
    intro row hrow
    obtain rfl := List.mem_singleton.mp hrow
    exact ⟨rfl, fun other hother => (hnew other hother).1⟩
  · rename_i id hostId hpayload
    rw [hpayload] at henrolls
    cases henrolls
  · cases hproject
    exact .of_eq rfl rfl rfl

theorem steady_of_installation (hproject : tables.projectInstallation event = .ok tables')
    (henrolls : event.payload.enrolls = false) : Steady tables tables' := by
  cases projectInstallation_change hproject with
  | created installation hpayload =>
      rw [hpayload] at henrolls
      cases henrolls
  | relayed relayUrl hostId =>
      exact ⟨hostIds_updateWhere fun _ => rfl, by simp [changeRelay], [], by simp [changeRelay],
        by simp⟩
  | settled => exact .of_eq rfl rfl rfl
  | moved => exact ⟨rfl, by simp, [], by simp, by simp⟩

theorem steady_of_aggregate (hproject : tables.projectAggregate event = .ok tables')
    (henrolls : event.payload.enrolls = false) : Steady tables tables' := by
  simp only [projectAggregate, bind_eq_ok] at hproject
  obtain ⟨first, hagent, second, hhost, hinstallation⟩ := hproject
  obtain ⟨agents, agentRevisions, rfl, -⟩ := projectAgent_writes hagent
  have hfirst : Steady tables { tables with agents, agentRevisions } := .of_eq rfl rfl rfl
  exact (hfirst.trans (steady_of_host hhost henrolls)).trans
    (steady_of_installation hinstallation henrolls)

theorem Placed.invitations_eq {sessionId : SessionId} {entryId : MessageId}
    {payload : SessionEntryPayload} {contextual : Bool} {key : Option String}
    {createdAt : DateTime} {entry : SessionEntry}
    (hplaced : Placed tables sessionId entryId payload contextual key createdAt tables' entry) :
    tables'.invitations = tables.invitations := by
  rw [hplaced.tables_eq]

theorem SessionChange.invitations_eq {sessionId : SessionId} {delivery : Option Delivery}
    (hchange : SessionChange world tables sessionId event tables' delivery) :
    tables'.invitations = tables.invitations := by
  cases hchange with
  | entryAppended _ _ _ _ _ _ _ _ hplaced => exact hplaced.invitations_eq
  | turnAccepted _ _ _ _ _ _ _ _ _ hplaced => exact hplaced.invitations_eq
  | turnStarted _ _ _ _ _ _ hplaced => exact hplaced.invitations_eq
  | turnEnded _ _ _ _ _ _ _ _ _ hplaced => exact hplaced.invitations_eq
  | _ => rfl

end Projection

namespace Store

open Projection

variable {world : World} {footprint : Footprint} {store store' : Store}

/-- The invitation an entry consumes, and the Host it is consumed for. -/
def consumption (entry : JournalEntry) : Option (InvitationId × HostId) :=
  match entry.payload with
  | .hostInvitationConsumed invitationId hostId => some (invitationId, hostId)
  | _ => none

def consumptions (store : Store) : List (InvitationId × HostId) :=
  store.journalEntries.filterMap consumption

theorem consumption_eq_none {entry : JournalEntry} (henrolls : entry.payload.enrolls = false) :
    consumption entry = none := by
  rw [consumption]
  split
  · rename_i hpayload
    rw [hpayload] at henrolls
    cases henrolls
  · rfl

theorem Move.consumptions_eq (hmove : Move world footprint store store')
    (hsteady : ∀ payload, footprint.produces payload → payload.enrolls = false) :
    store'.consumptions = store.consumptions := by
  cases hmove with
  | projected _ entry _ _ _ _ _ _ hproduces =>
      simp [consumptions, consumption_eq_none (hsteady _ hproduces)]
  | aggregated entries _ _ _ _ _ _ hproduces =>
      have hnone : entries.filterMap consumption = [] :=
        List.filterMap_eq_nil_iff.mpr fun entry hentry =>
          consumption_eq_none (hsteady _ (hproduces entry hentry))
      rw [consumptions, List.filterMap_append, hnone, List.append_nil, consumptions]
  | delivered _ hmove => rw [consumptions, hmove.keeps.2.1, consumptions]
  | _ => rfl

theorem Moves.consumptions_eq (hmoves : Moves world footprint store store')
    (hsteady : ∀ payload, footprint.produces payload → payload.enrolls = false) :
    store'.consumptions = store.consumptions := by
  induction hmoves with
  | refl => rfl
  | tail _ hmove ih => rw [hmove.consumptions_eq hsteady, ih]

theorem Moves.steady (hmoves : Moves world footprint store store')
    (hsteady : ∀ payload, footprint.produces payload → payload.enrolls = false) :
    Steady store.projection store'.projection := by
  apply hmoves.tables_related Steady
  · exact fun _ => .of_eq rfl rfl rfl
  · exact fun _ _ _ => Steady.trans
  · rintro tables tables' ⟨sessionId, event, delivery, -, -, hchange⟩
    have hsame := hchange.sameAggregates
    exact .of_eq hsame.hosts_eq hsame.installation_eq hchange.invitations_eq
  · intro tables tables' event batch _ hproduces hproject
    exact steady_of_aggregate hproject (hsteady _ hproduces)

/-! ## The account of the invitations -/

/-- The Hosts after the first are those the consumed invitations enrolled, in
the same order; no invitation is consumed twice, and the table marks exactly the
consumed ones. -/
structure Invited (store : Store) : Prop where
  empty : store.projection.installation.isSome = false →
    store.projection.hostIds = [] ∧ store.consumptions = []
  first : store.projection.installation.isSome = true → store.projection.hostIds ≠ []
  enrolled : store.projection.hostIds.tail = store.consumptions.map Prod.snd
  once : (store.consumptions.map Prod.fst).Nodup
  known : ∀ id ∈ store.consumptions.map Prod.fst,
    ∃ row ∈ store.projection.invitations, row.id = id
  used : ∀ row ∈ store.projection.invitations,
    row.consumedAt ≠ none ↔ row.id ∈ store.consumptions.map Prod.fst

theorem invited_empty : Store.empty.Invited := by
  constructor <;> simp [Store.empty, Projection.empty, hostIds, consumptions]

theorem Invited.steady (hinvited : store.Invited)
    (hconsumptions : store'.consumptions = store.consumptions)
    (hsteady : Steady store.projection store'.projection) : store'.Invited := by
  obtain ⟨added, hadded, hnew⟩ := hsteady.invitations
  constructor
  · rw [hsteady.installation, hsteady.hosts, hconsumptions]
    exact hinvited.empty
  · rw [hsteady.installation, hsteady.hosts]
    exact hinvited.first
  · rw [hsteady.hosts, hconsumptions]
    exact hinvited.enrolled
  · rw [hconsumptions]
    exact hinvited.once
  · rw [hconsumptions, hadded]
    intro id hid
    obtain ⟨row, hrow, heq⟩ := hinvited.known id hid
    exact ⟨row, List.mem_append_left _ hrow, heq⟩
  · rw [hconsumptions, hadded]
    intro row hrow
    rcases List.mem_append.mp hrow with hrow | hrow
    · exact hinvited.used row hrow
    · -- an invitation with a new identifier has not been consumed
      obtain ⟨hnone, hfresh⟩ := hnew row hrow
      refine iff_of_false (fun h => h hnone) fun hmem => ?_
      obtain ⟨other, hother, heq⟩ := hinvited.known row.id hmem
      exact hfresh other hother heq

theorem Invited.of_eq (hinvited : store.Invited)
    (htables : store'.projection = store.projection)
    (hjournal : store'.journalEntries = store.journalEntries) : store'.Invited := by
  apply hinvited.steady
  · rw [consumptions, hjournal, consumptions]
  · rw [htables]
    exact .of_eq rfl rfl rfl

/-! ## Consuming an invitation -/

/-- What a consumption does: the invitation was unused and in time, and one Host
is enrolled for it. -/
structure Consumed (world : World) (store : Store) (invitationId : InvitationId)
    (secret : String) (host : Host) (store' : Store) : Prop where
  valid : ∃ row ∈ store.projection.invitations, row.id = invitationId ∧
    row.consumedAt = none ∧ world.now store.drawn < row.expiresAt ∧
    row.secretHash = world.secretHash secret
  installed : store.projection.installation.isSome = true
  installation : store'.projection.installation = store.projection.installation
  marked : ∃ consumedAt, store'.projection.invitations =
    updateWhere (fun row => row.id = invitationId ∧ row.consumedAt = none)
      (fun row => { row with consumedAt := some consumedAt }) store.projection.invitations
  hosts : store'.projection.hosts = store.projection.hosts ++ [{ host, revoked := false }]
  consumptions : store'.consumptions = store.consumptions ++ [(invitationId, host.id)]

section Consume

variable {context : CommandContext} {invitationId : InvitationId}
  {secret name publicKey noisePublicKey relayUrl : String}

theorem consumptions_consumed {host : Host} {committed : List JournalEntry}
    (hpayloads : committed.map (·.payload) =
      [.hostInvitationConsumed invitationId host.id, .hostEnrolled host]) :
    committed.filterMap consumption = [(invitationId, host.id)] := by
  obtain ⟨consumed, rest, rfl, hconsumed, hrest⟩ := List.map_eq_cons_iff.mp hpayloads
  obtain ⟨enrolled, nothing, rfl, henrolled, hnothing⟩ := List.map_eq_cons_iff.mp hrest
  obtain rfl := List.map_eq_nil_iff.mp hnothing
  simp [consumption, hconsumed, henrolled]

/-- The two entries of a consumption are projected one after the other. -/
theorem ensures_applyConsumption {host : Host} {committed : List JournalEntry}
    (hpayloads : committed.map (·.payload) =
      [.hostInvitationConsumed invitationId host.id, .hostEnrolled host]) :
    ensures (applyHostEvents committed) store fun _ store' => ∃ consumedAt,
      store' = { store with projection := { store.projection with
        invitations := updateWhere (fun row => row.id = invitationId ∧ row.consumedAt = none)
          (fun row => { row with consumedAt := some consumedAt }) store.projection.invitations
        hosts := store.projection.hosts ++ [{ host, revoked := false }] } } := by
  obtain ⟨consumed, rest, rfl, hconsumed, hrest⟩ := List.map_eq_cons_iff.mp hpayloads
  obtain ⟨enrolled, nothing, rfl, henrolled, hnothing⟩ := List.map_eq_cons_iff.mp hrest
  obtain rfl := List.map_eq_nil_iff.mp hnothing
  refine ensures_mono ensures_applyEvents ?_
  rintro _ _ ⟨tables, hproject, rfl⟩
  simp only [List.foldlM_cons, List.foldlM_nil, projectHost, hconsumed, henrolled,
    Projection.consumeInvitation, enrollHost, bind_eq_ok, updateOne_eq_ok, exists_unit,
    demand_eq_ok, pure_eq_ok] at hproject
  obtain ⟨_, ⟨_, ⟨-, rfl⟩, rfl⟩, _, ⟨-, rfl⟩, rfl⟩ := hproject
  exact ⟨consumed.recordedAt, rfl⟩

theorem ensures_consumeInvitation :
    ensures (consumeInvitation world context invitationId secret name publicKey noisePublicKey
      relayUrl) store fun host store' =>
        store' = store ∨ Consumed world store invitationId secret host store' := by
  simp only [consumeInvitation, transactCommand, ensures_transaction, ensures_bind, ensures_lift,
    ensures_reads, ensures_pure]
  intro _ _
  cases hreceipt : store.selectCommandReceipt (context.operationId "consume_invitation") with
  | some receipt =>
      simp only [ensures_bind, ensures_require, ensures_expect, ensures_pure]
      exact fun _ _ _ => .inl trivial
  | none =>
      simp only [decideConsumeInvitation, requiredInstallation, ensures_bind, ensures_select,
        ensures_expect, ensures_utcNow, ensures_require, ensures_newId, ensures_singleSubject,
        ensures_pure]
      intro invitation hfind hvalid installation hinstallation
      apply ensures_appendJournalEntriesIn
      · intro receipt hfound
        cases hreceipt.symm.trans hfound
      intro _ committed hinserted
      let host : Host :=
        { id := ⟨world.uuid (store.drawn + 1)⟩, name, publicKey, noisePublicKey
          relayUrl := some relayUrl, createdAt := world.now (store.drawn + 1 + 1) }
      have hpayloads : committed.map (·.payload) =
          [.hostInvitationConsumed invitationId host.id, .hostEnrolled host] :=
        hinserted.payloads
      refine ensures_mono (ensures_applyConsumption hpayloads) ?_
      rintro _ _ ⟨consumedAt, rfl⟩
      have hrow := List.mem_of_find?_eq_some hfind
      have hid : invitation.id = invitationId := by simpa using List.find?_some hfind
      apply Or.inr
      constructor
      · exact ⟨invitation, hrow, hid, hvalid⟩
      · rw [hinstallation, Option.isSome_some]
      · rfl
      · exact ⟨consumedAt, rfl⟩
      · rfl
      · rw [consumptions, List.filterMap_append, consumptions_consumed hpayloads, consumptions]

theorem rollsBack_consumeInvitation :
    RollsBack rollback (consumeInvitation world context invitationId secret name publicKey
      noisePublicKey relayUrl) := by
  apply RollsBack.after rollback_rollback (undone_lift rollback_self _)
  exact fun _ => RollsBack.returning (rollsBack_transaction _) _

/-- A consumption that fails only draws; one that succeeds is a retry or
consumes an unused invitation. -/
theorem consumeInvitation_outcome (world : World) (store : Store) (context : CommandContext)
    (invitationId : InvitationId) (secret name publicKey noisePublicKey relayUrl : String) :
    match consumeInvitation world context invitationId secret name publicKey noisePublicKey
      relayUrl store with
    | (.error _, store') => ∃ drawn, store' = { store with drawn }
    | (.ok host, store') =>
        store' = store ∨ Consumed world store invitationId secret host store' := by
  split
  · rename_i error store' hrun
    obtain ⟨reached, rfl⟩ := rollsBack_consumeInvitation store error store' hrun
    exact ⟨reached.drawn, rfl⟩
  · rename_i host store' hrun
    exact ensures_consumeInvitation host store' hrun

theorem Invited.consumed {host : Host} (hinvited : store.Invited)
    (hconsumed : Consumed world store invitationId secret host store') : store'.Invited := by
  have hinstalled := hconsumed.installed
  have hids : store'.projection.hostIds = store.projection.hostIds ++ [host.id] := by
    rw [hostIds, hconsumed.hosts, List.map_append, hostIds]
    rfl
  obtain ⟨row, hrow, rfl, hunused, -⟩ := hconsumed.valid
  obtain ⟨consumedAt, hmarked⟩ := hconsumed.marked
  have hnew : row.id ∉ store.consumptions.map Prod.fst := by
    rw [← hinvited.used row hrow, not_not]
    exact hunused
  constructor
  · rw [hconsumed.installation, hinstalled]
    exact fun h => by cases h
  · rw [hids]
    exact fun _ => by simp
  · rw [hids, hconsumed.consumptions, List.tail_append_of_ne_nil (hinvited.first hinstalled),
      hinvited.enrolled, List.map_append]
    rfl
  · rw [hconsumed.consumptions, List.map_append, List.nodup_append_comm]
    exact List.nodup_cons.mpr ⟨hnew, hinvited.once⟩
  · rw [hconsumed.consumptions, hmarked]
    intro id hid
    have hold : ∃ old ∈ store.projection.invitations, old.id = id := by
      rw [List.map_append, List.mem_append] at hid
      rcases hid with hid | hid
      · exact hinvited.known id hid
      · exact ⟨row, hrow, (List.mem_singleton.mp hid).symm⟩
    obtain ⟨old, hold, rfl⟩ := hold
    refine ⟨_, mem_updateWhere.mpr ⟨old, hold, rfl⟩, ?_⟩
    split <;> rfl
  · rw [hconsumed.consumptions, hmarked]
    intro marked hmem
    obtain ⟨old, hold, rfl⟩ := mem_updateWhere.mp hmem
    have hused := hinvited.used old hold
    by_cases hid : old.id = row.id
    · -- the row that is marked now, or another that was marked before
      by_cases hnone : old.consumedAt = none <;> simp [hid, hnone]
    · simp [hid, hused]

end Consume

/-! ## The first Host -/

section Initialize

variable {context : CommandContext} {hostName hostPublicKey hostNoisePublicKey : String}
  {installationPublicKey : String}

/-- Creating the installation enrolls its first Host. -/
theorem ensures_initializeHub :
    ensures (initializeHub world context hostName hostPublicKey hostNoisePublicKey
      installationPublicKey) store fun installation store' =>
        (store'.projection = store.projection ∧ store'.journalEntries = store.journalEntries) ∨
        store.projection.installation.isSome = false ∧
          store'.projection.installation = some installation ∧
          store'.projection.hostIds = store.projection.hostIds ++ [installation.hubHostId] ∧
          store'.projection.invitations = store.projection.invitations ∧
          store'.consumptions = store.consumptions := by
  simp only [initializeHub, ensures_bind, ensures_lift, ensures_select]
  intro _ _
  cases hinstallation : store.projection.installation with
  | some existing => simp
  | none =>
      simp only [appendJournalEntriesWith, ensures_bind, ensures_utcNow, ensures_newId,
        ensures_singleSubject, ensures_transaction, ensures_pure]
      apply ensures_appendJournalEntriesIn
      · exact fun _ _ _ => .inl ⟨rfl, rfl⟩
      intro _ committed hinserted
      have hpayloads : committed.map (·.payload) = _ := hinserted.payloads
      refine ensures_mono (projectsAggregates_initializing committed _ hpayloads) ?_
      rintro _ _ ⟨tables, hproject, rfl⟩
      obtain ⟨enrolled, rest, rfl, henrolled, hrest⟩ := List.map_eq_cons_iff.mp hpayloads
      obtain ⟨created, nothing, rfl, hcreated, hnothing⟩ := List.map_eq_cons_iff.mp hrest
      obtain rfl := List.map_eq_nil_iff.mp hnothing
      simp only [List.foldlM_cons, List.foldlM_nil, projectAggregate, projectAgent, projectHost,
        projectInstallation, henrolled, hcreated, enrollHost, createInstallation, bind_eq_ok,
        exists_unit, demand_eq_ok, pure_eq_ok, Except.ok.injEq, exists_eq_left'] at hproject
      obtain ⟨_, ⟨_, ⟨-, rfl⟩, rfl⟩, _, ⟨-, rfl⟩, rfl⟩ := hproject
      refine .inr ⟨rfl, rfl, ?_, rfl, ?_⟩
      · simp [hostIds]
      · simp [consumptions, consumption, henrolled, hcreated]

theorem rollsBack_initializeHub :
    RollsBack rollback (initializeHub world context hostName hostPublicKey hostNoisePublicKey
      installationPublicKey) := by
  apply RollsBack.after rollback_rollback (undone_lift rollback_self _)
  intro _
  apply RollsBack.after rollback_rollback (undone_select _)
  intro existing
  cases existing with
  | some installation =>
      intro store error store' hrun
      cases hrun
  | none =>
      apply RollsBack.after rollback_rollback undone_utcNow
      intro now
      apply RollsBack.after rollback_rollback undone_newId
      intro hostId
      apply RollsBack.after rollback_rollback undone_newId
      intro installationId
      apply RollsBack.after rollback_rollback undone_singleSubject
      intro enrolled
      apply RollsBack.after rollback_rollback undone_singleSubject
      exact fun created => RollsBack.returning (rollsBack_transaction _) _

theorem Invited.initialized (hinvited : store.Invited) :
    (initializeHub world context hostName hostPublicKey hostNoisePublicKey
      installationPublicKey store).2.Invited := by
  refine rollsBack_initializeHub.related (fun before after => before.Invited → after.Invited)
    (ensures_mono ensures_initializeHub ?_) ?_ hinvited
  · rintro installation store' (⟨htables, hjournal⟩ | ⟨hnone, hsome, hids, hrows, hconsumptions⟩)
      hinvited
    · exact hinvited.of_eq htables hjournal
    · obtain ⟨hhosts, hempty⟩ := hinvited.empty hnone
      have hrows' : ∀ row ∈ store.projection.invitations, row.consumedAt = none := by
        intro row hrow
        have hused := hinvited.used row hrow
        simpa [hempty] using hused
      rw [hempty] at hconsumptions
      rw [hhosts] at hids
      constructor
      · rw [hsome]
        exact fun h => by cases h
      · rw [hids]
        exact fun _ => by simp
      · rw [hids, hconsumptions]
        rfl
      · rw [hconsumptions]
        exact List.nodup_nil
      · rw [hconsumptions]
        exact fun _ h => by cases h
      · rw [hrows, hconsumptions]
        intro row hrow
        simp [hrows' row hrow]
  · exact fun reached hinvited => hinvited.of_eq rfl rfl

end Initialize

/-! ## Every run -/

theorem Invited.step (hinvited : store.Invited) (hkeyed : store.projection.Keyed) (op : StoreOp) :
    (step world store op).Invited := by
  by_cases henrolls : op.enrolls = true
  · cases op with
    | consumeInvitation context invitationId secret name publicKey noisePublicKey relayUrl =>
        have houtcome := consumeInvitation_outcome world store context invitationId secret name
          publicKey noisePublicKey relayUrl
        rw [Store.step, exec, discard_snd]
        split at houtcome
        · rename_i error store' hrun
          obtain ⟨drawn, rfl⟩ := houtcome
          rw [hrun]
          exact hinvited.of_eq rfl rfl
        · rename_i host store' hrun
          rw [hrun]
          rcases houtcome with rfl | hconsumed
          · exact hinvited
          · exact hinvited.consumed hconsumed
    | initializeHub context hostName hostPublicKey hostNoisePublicKey installationPublicKey =>
        rw [Store.step, exec, discard_snd]
        exact hinvited.initialized
    | _ => cases henrolls
  · have hsteady : ∀ payload, op.footprint.produces payload → payload.enrolls = false := by
      intro payload hproduces
      rw [Bool.eq_false_iff]
      exact fun hpayload => henrolls (StoreOp.enrolls_of_produces hproduces hpayload)
    have hmoves := step_moves world hkeyed op
    exact hinvited.steady (hmoves.consumptions_eq hsteady) (hmoves.steady hsteady)

theorem run_invited (world : World) (ops : List StoreOp) : (run world ops).Invited := by
  apply And.right
  apply run_invariant world fun store => store.projection.Keyed ∧ store.Invited
  · exact ⟨keyed_empty, invited_empty⟩
  · rintro store op ⟨hkeyed, hinvited⟩
    exact ⟨step_keyed hkeyed op, hinvited.step hkeyed op⟩

theorem run_hostIds_nodup (world : World) (ops : List StoreOp) :
    (run world ops).projection.hostIds.Nodup :=
  ((runFrom_moves world keyed_empty ops).hubbed hubbed_empty).hosts

/-- After every run each invitation has enrolled at most one Host, and each Host
after the first comes from one invitation, which is marked as consumed.  Another
consumption fails without a trace, repeats an earlier one without a trace, or
takes an unused invitation and enrolls one Host for it. -/
theorem invitations_single_use (world : World) (ops : List StoreOp) :
    let store := run world ops
    (store.consumptions.map Prod.fst).Nodup ∧
    (∀ row ∈ store.projection.invitations,
      row.consumedAt ≠ none ↔ ∃ hostId, (row.id, hostId) ∈ store.consumptions) ∧
    (∀ consumed ∈ store.consumptions, consumed.2 ∈ store.projection.hostIds.tail) ∧
    (∀ hostId ∈ store.projection.hostIds.tail, ∃! invitationId,
      (invitationId, hostId) ∈ store.consumptions ∧
      ∃ row ∈ store.projection.invitations, row.id = invitationId ∧ row.consumedAt ≠ none) ∧
    ∀ context invitationId secret name publicKey noisePublicKey relayUrl,
      match consumeInvitation world context invitationId secret name publicKey noisePublicKey
        relayUrl store with
      | (.error _, store') => ∃ drawn, store' = { store with drawn }
      | (.ok host, store') =>
          store' = store ∨ Consumed world store invitationId secret host store' := by
  intro store
  have hinvited : store.Invited := run_invited world ops
  have hids : store.projection.hostIds.Nodup := run_hostIds_nodup world ops
  refine ⟨hinvited.once, ?_, ?_, ?_, ?_⟩
  · intro row hrow
    rw [hinvited.used row hrow]
    simp
  · intro consumed hconsumed
    rw [hinvited.enrolled]
    exact List.mem_map_of_mem hconsumed
  · intro hostId hhost
    have hnodup : (store.consumptions.map Prod.snd).Nodup := by
      rw [← hinvited.enrolled]
      exact hids.tail
    rw [hinvited.enrolled] at hhost
    obtain ⟨⟨invitationId, _⟩, hmem, rfl⟩ := List.mem_map.mp hhost
    obtain ⟨row, hrow, rfl⟩ := hinvited.known invitationId (List.mem_map_of_mem hmem)
    refine ⟨row.id, ⟨hmem, row, hrow, rfl, ?_⟩, ?_⟩
    · rw [hinvited.used row hrow]
      exact List.mem_map_of_mem hmem
    · rintro other ⟨hother, -⟩
      exact congrArg Prod.fst (List.inj_on_of_nodup_map hnodup hother hmem rfl)
  · exact consumeInvitation_outcome world store

end Store

end Mews
