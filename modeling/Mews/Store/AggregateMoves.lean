import Mews.Store.Footprints

/-!
# Aggregate commands as moves

The commands on Agents, Hosts and the installation.
-/

namespace Mews

open Protocol Tx

namespace Store

variable {world : World} {footprint : Footprint} {A : Type}

/-! ## Aggregates -/

section Aggregates

variable {store : Store}

@[simp] theorem ensures_singleSubject {subject : JournalSubject} {actor : EventActor}
    {payload : JournalEvent} (post : List JournalSubjectAppend → Store → Prop) :
    ensures (singleSubject world subject actor payload) store post ↔
      post [{ subject, entries := [⟨⟨world.uuid store.drawn⟩, actor, none, payload⟩] }]
        { store with drawn := store.drawn + 1 } := by
  simp [singleSubject, newJournalEntry]

theorem projectsAggregates_of
    {project : Projection → JournalEntry → Except StoreError Projection}
    {payloads : List JournalEvent}
    (hproject : ∀ event : JournalEntry, event.payload ∈ payloads → ∀ tables : Projection,
      tables.projectAggregate event = project tables event) :
    ProjectsAggregates payloads (applyEvents project) := by
  intro committed store' hpayloads
  refine ensures_mono ensures_applyEvents ?_
  rintro _ store'' ⟨tables, hfold, rfl⟩
  refine ⟨tables, ?_, rfl⟩
  rw [← hfold]
  refine foldlM_congr (fun event hevent tables => hproject event ?_ tables) _
  rw [← hpayloads]
  exact List.mem_map_of_mem hevent

/-- A decision whose events are all read by one projection. -/
theorem decided_of {T : Type} {result : T} {subjects : List JournalSubjectAppend}
    {project : Projection → JournalEntry → Except StoreError Projection} {start : Store}
    (hdrew : ∃ drawn, store = { start with drawn })
    (hkind : ∀ subject ∈ subjects, subject.subject.kind ≠ .session)
    (hlawful : ∀ subject ∈ subjects, ∀ entry ∈ subject.entries,
      LawfulAggregate start.projection
        (subjects.flatMap fun subject => subject.entries.map (·.payload)) entry.payload)
    (hproduces : ∀ subject ∈ subjects, ∀ entry ∈ subject.entries,
      footprint.produces entry.payload)
    (hproject : ∀ event : JournalEntry,
      event.payload ∈ subjects.flatMap (fun subject => subject.entries.map (·.payload)) →
      ∀ tables : Projection, tables.projectAggregate event = project tables event) :
    Decided footprint (applyEvents project) start (result, subjects) store where
  drew := hdrew
  kind := hkind
  lawful := hlawful
  produces := hproduces
  projects := projectsAggregates_of hproject

/-- The decision for one event, by the aggregate it belongs to. -/
theorem decided_agent {T : Type} {result : T} {subject : JournalSubject}
    {entry : NewJournalEntry} {start : Store} (hdrew : ∃ drawn, store = { start with drawn })
    (hkind : subject.kind ≠ .session) (hpayload : isAgentPayload entry.payload = true)
    (hlawful : LawfulAggregate start.projection [entry.payload] entry.payload)
    (hproduces : footprint.produces entry.payload) :
    Decided footprint applyAgentEvents start (result, [{ subject, entries := [entry] }])
      store :=
  decided_of hdrew (by simpa using hkind) (by simpa using hlawful) (by simpa using hproduces)
    fun event hevent => projectAggregate_of_agent (by simp_all)

theorem decided_host {T : Type} {result : T} {subject : JournalSubject}
    {entry : NewJournalEntry} {start : Store} (hdrew : ∃ drawn, store = { start with drawn })
    (hkind : subject.kind ≠ .session) (hpayload : isHostPayload entry.payload = true)
    (hlawful : LawfulAggregate start.projection [entry.payload] entry.payload)
    (hproduces : footprint.produces entry.payload) :
    Decided footprint applyHostEvents start (result, [{ subject, entries := [entry] }])
      store :=
  decided_of hdrew (by simpa using hkind) (by simpa using hlawful) (by simpa using hproduces)
    fun event hevent => projectAggregate_of_host (by simp_all)

theorem decided_installation {T : Type} {result : T} {subject : JournalSubject}
    {entry : NewJournalEntry} {start : Store} (hdrew : ∃ drawn, store = { start with drawn })
    (hkind : subject.kind ≠ .session) (hpayload : isInstallationPayload entry.payload = true)
    (hlawful : LawfulAggregate start.projection [entry.payload] entry.payload)
    (hproduces : footprint.produces entry.payload) :
    Decided footprint applyInstallationEvents start
      (result, [{ subject, entries := [entry] }]) store :=
  decided_of hdrew (by simpa using hkind) (by simpa using hlawful) (by simpa using hproduces)
    fun event hevent => projectAggregate_of_installation (by simp_all)

theorem transactCommand_reaches {T : Type} [CommandOutput T] {context : CommandContext}
    {operation : String} {requestHash : Digest}
    {decide : Action (T × List JournalSubjectAppend)}
    {mutate : List JournalEntry → Action Unit}
    (hdecide : ∀ store, ensures decide store (Decided footprint mutate store)) :
    Preserves (Reaches world footprint)
      (transactCommand world context operation requestHash decide mutate) :=
  fun _ _ => moves_of_rollsBack (rollsBack_transaction _)
    (ensures_mono (ensures_transactCommand hdecide) fun _ _ h => h.moves)

section Agents

theorem ensures_decideCreateAgent {slug soul configToml : String} {authorHostId : HostId}
    (hproduces : ∀ agent initialRevision, footprint.produces (.agentCreated agent initialRevision)) :
    ensures (decideCreateAgent world slug soul configToml authorHostId) store
      (Decided footprint applyAgentEvents store) := by
  simp only [decideCreateAgent, ensures_bind, ensures_utcNow, ensures_newId,
    ensures_singleSubject, ensures_pure]
  exact decided_agent ⟨_, rfl⟩ (by simp [JournalSubject.kind]) rfl ⟨rfl, rfl, rfl⟩
    (hproduces _ _)

theorem ensures_decideRenameAgent {slug newSlug : String}
    (hproduces : footprint.produces (.agentRenamed newSlug)) :
    ensures (decideRenameAgent world slug newSlug) store
      (Decided footprint applyAgentEvents store) := by
  simp only [decideRenameAgent, selectAgentBySlug, ensures_bind, ensures_select, ensures_expect,
    ensures_singleSubject, ensures_pure]
  exact fun agent _ => decided_agent ⟨_, rfl⟩ (by simp [JournalSubject.kind]) rfl trivial
    hproduces

theorem ensures_decideArchiveAgent {slug : String}
    (hproduces : footprint.produces .agentArchived) :
    ensures (decideArchiveAgent world slug) store (Decided footprint applyAgentEvents store) := by
  simp only [decideArchiveAgent, selectAgentBySlug, ensures_bind, ensures_select, ensures_expect,
    ensures_singleSubject, ensures_pure]
  exact fun agent _ => decided_agent ⟨_, rfl⟩ (by simp [JournalSubject.kind]) rfl trivial
    hproduces

theorem ensures_decideUpdateAgent {agentId : AgentId} {expectedRevision : Nat}
    {soul configToml : String} {authorHostId : HostId}
    (hproduces : ∀ revision, footprint.produces (.agentRevisionCreated revision)) :
    ensures (decideUpdateAgent world agentId expectedRevision soul configToml authorHostId) store
      (Decided footprint applyAgentEvents store) := by
  simp only [decideUpdateAgent, ensures_bind, ensures_select, ensures_expect, ensures_require,
    ensures_utcNow, ensures_singleSubject, ensures_pure]
  exact fun agent _ _ => decided_agent ⟨_, rfl⟩ (by simp [JournalSubject.kind]) rfl trivial
    (hproduces _)

theorem createAgent_reaches {context : CommandContext} {slug soul configToml : String}
    {authorHostId : HostId}
    (hproduces : ∀ agent initialRevision, footprint.produces (.agentCreated agent initialRevision)) :
    Preserves (Reaches world footprint)
      (createAgent world context slug soul configToml authorHostId) :=
  Preserves.then (reaches_lift _) fun _ => Preserves.then (reaches_lift _) fun _ =>
    Preserves.then (transactCommand_reaches fun _ => ensures_decideCreateAgent hproduces)
      fun _ => reaches_pure _

theorem renameAgentWithCommand_reaches {context : CommandContext}
    {command slug newSlug : String}
    (hproduces : footprint.produces (.agentRenamed newSlug)) :
    Preserves (Reaches world footprint)
      (renameAgentWithCommand world context command slug newSlug) :=
  Preserves.then (reaches_lift _) fun _ =>
    Preserves.then (transactCommand_reaches fun _ => ensures_decideRenameAgent hproduces)
      fun _ => reaches_pure _

theorem archiveAgent_reaches {context : CommandContext} {slug : String}
    (hproduces : footprint.produces .agentArchived) :
    Preserves (Reaches world footprint) (archiveAgent world context slug) :=
  Preserves.then (transactCommand_reaches fun _ => ensures_decideArchiveAgent hproduces)
    fun _ => reaches_pure _

theorem updateAgent_reaches {context : CommandContext} {agentId : AgentId}
    {expectedRevision : Nat} {soul configToml : String} {authorHostId : HostId}
    (hproduces : ∀ revision, footprint.produces (.agentRevisionCreated revision)) :
    Preserves (Reaches world footprint)
      (updateAgent world context agentId expectedRevision soul configToml authorHostId) :=
  Preserves.then (reaches_lift _) fun _ =>
    Preserves.then (transactCommand_reaches fun _ => ensures_decideUpdateAgent hproduces)
      fun _ => reaches_pure _

end Agents

/-- Whatever follows the last transaction cannot fail. -/
theorem RollsBack.returning {B : Type} {action : Action A} (haction : RollsBack rollback action)
    (value : A → B) : RollsBack rollback (action >>= fun result => pure (value result)) := by
  intro store error store' hrun
  cases hresult : action store with
  | mk outcome reached =>
      change andThen action _ store = _ at hrun
      cases outcome with
      | ok result => simp [andThen, hresult, pure, ret] at hrun
      | error error' =>
          simp only [andThen, hresult, Prod.mk.injEq] at hrun
          obtain ⟨middle, hmiddle⟩ := haction store error' reached hresult
          exact ⟨middle, by rw [← hrun.2, hmiddle]⟩

section Hosts

theorem ensures_decideRevokeHost {id : HostId}
    (hproduces : footprint.produces (.hostRevoked id)) :
    ensures (decideRevokeHost world id) store (Decided footprint applyHostEvents store) := by
  simp only [decideRevokeHost, requiredInstallation, ensures_bind, ensures_select, ensures_expect,
    ensures_require, ensures_singleSubject, ensures_pure]
  exact fun _ _ _ _ => decided_host ⟨_, rfl⟩ (by simp [JournalSubject.kind]) rfl trivial hproduces

theorem revokeHost_reaches {context : CommandContext} {id : HostId}
    (hproduces : footprint.produces (.hostRevoked id)) :
    Preserves (Reaches world footprint) (revokeHost world context id) :=
  Preserves.then (transactCommand_reaches fun _ => ensures_decideRevokeHost hproduces)
    fun _ => reaches_pure _

theorem createInvitation_reaches {context : CommandContext} {expiresAt : DateTime}
    (hproduces : ∀ id secretHash,
      footprint.produces (.hostInvitationCreated id expiresAt secretHash)) :
    Preserves (Reaches world footprint) (createInvitation world context expiresAt) := by
  intro store _
  refine moves_of_rollsBack ?_ ?_
  · refine RollsBack.after rollback_rollback undone_newId fun requestId => ?_
    refine RollsBack.after rollback_rollback undone_utcNow fun now => ?_
    refine RollsBack.after rollback_rollback (undone_require rollback_self _ _) fun _ => ?_
    refine RollsBack.after rollback_rollback undone_newId fun id => ?_
    refine RollsBack.after rollback_rollback undone_newSecret fun secret => ?_
    refine RollsBack.after rollback_rollback undone_requiredInstallation fun installation => ?_
    refine RollsBack.after rollback_rollback undone_singleSubject fun subjects => ?_
    exact RollsBack.returning (rollsBack_transaction _) _
  · simp only [createInvitation, requiredInstallation, appendJournalEntriesWith, ensures_bind,
      ensures_newId, ensures_utcNow, ensures_require, ensures_newSecret, ensures_select,
      ensures_expect, ensures_singleSubject, ensures_transaction, ensures_pure]
    intro _ installation _
    refine ensures_mono (ensures_appendDecorated rfl (by simp [JournalSubject.kind])
      (by simp [LawfulAggregate]) (by simpa using hproduces _ _)
      (projectsAggregates_of fun event hevent => ?_))
      fun _ _ h => .trans (.single (.drew store _)) h.1
    simp only [List.flatMap_cons, List.map_cons, List.map_nil, List.flatMap_nil, List.append_nil,
      List.mem_singleton] at hevent
    exact projectAggregate_of_host (by rw [hevent]; rfl)

theorem ensures_decideConsumeInvitation {invitationId : InvitationId}
    {secret name publicKey noisePublicKey relayUrl : String}
    (hconsumed : ∀ hostId, footprint.produces (.hostInvitationConsumed invitationId hostId))
    (henrolled : ∀ host, footprint.produces (.hostEnrolled host)) :
    ensures (decideConsumeInvitation world invitationId secret name publicKey noisePublicKey
      relayUrl) store (Decided footprint applyHostEvents store) := by
  simp only [decideConsumeInvitation, requiredInstallation, ensures_bind, ensures_select,
    ensures_expect, ensures_utcNow, ensures_require, ensures_newId, ensures_singleSubject,
    ensures_pure]
  intro invitation _ _ installation _
  refine decided_of ⟨_, rfl⟩ (by simp [JournalSubject.kind]) (by simp [LawfulAggregate]) ?_ ?_
  · simp only [List.cons_append, List.nil_append, List.mem_cons, List.not_mem_nil, or_false,
      forall_eq_or_imp, forall_eq]
    exact ⟨hconsumed _, henrolled _⟩
  · intro event hevent
    refine projectAggregate_of_host ?_
    simp only [List.cons_append, List.nil_append, List.flatMap_cons, List.map_cons, List.map_nil,
      List.flatMap_nil, List.mem_cons, List.not_mem_nil, or_false] at hevent
    rcases hevent with hevent | hevent <;> rw [hevent] <;> rfl

theorem consumeInvitation_reaches {context : CommandContext} {invitationId : InvitationId}
    {secret name publicKey noisePublicKey relayUrl : String}
    (hconsumed : ∀ hostId, footprint.produces (.hostInvitationConsumed invitationId hostId))
    (henrolled : ∀ host, footprint.produces (.hostEnrolled host)) :
    Preserves (Reaches world footprint)
      (consumeInvitation world context invitationId secret name publicKey noisePublicKey
        relayUrl) :=
  Preserves.then (reaches_lift _) fun _ =>
    Preserves.then (transactCommand_reaches fun _ => ensures_decideConsumeInvitation hconsumed henrolled)
      fun _ => reaches_pure _

end Hosts

section Installations

theorem projectHost_of_installation {event : JournalEntry} (tables : Projection)
    (hpayload : isInstallationPayload event.payload = true) :
    tables.projectHost event = .ok tables := by
  cases h : event.payload <;> simp_all [Projection.projectHost, isInstallationPayload]

theorem projectInstallation_of_host {event : JournalEntry} (tables : Projection)
    (hpayload : isHostPayload event.payload = true) :
    tables.projectInstallation event = .ok tables := by
  cases h : event.payload <;> simp_all [Projection.projectInstallation, isHostPayload]

/-- Applying the Host events first and the installation events after them is
applying each event as it stands. -/
theorem projectsAggregates_initializing {host : Host} {installation : Installation} :
    ProjectsAggregates [.hostEnrolled host, .installationCreated installation]
      applyHostAndInstallationEvents := by
  intro committed store hpayloads
  obtain ⟨enrolled, rest, rfl, henrolled, hrest⟩ := List.map_eq_cons_iff.mp hpayloads
  obtain ⟨created, nothing, rfl, hcreated, hnothing⟩ := List.map_eq_cons_iff.mp hrest
  obtain rfl := List.map_eq_nil_iff.mp hnothing
  have hhost : isHostPayload enrolled.payload = true := by rw [henrolled]; rfl
  have hinstallation : isInstallationPayload created.payload = true := by rw [hcreated]; rfl
  simp only [applyHostAndInstallationEvents, ensures_bind]
  refine ensures_mono ensures_applyEvents ?_
  rintro _ _ ⟨hosts, hhosts, rfl⟩
  refine ensures_mono ensures_applyEvents ?_
  rintro _ _ ⟨tables, htables, rfl⟩
  refine ⟨tables, ?_, rfl⟩
  simp only [List.foldlM_cons, List.foldlM_nil, bind_eq_ok, pure_eq_ok,
    projectHost_of_installation _ hinstallation, projectInstallation_of_host _ hhost,
    Except.ok.injEq, exists_eq_left', exists_eq_right] at hhosts htables
  simp only [List.foldlM_cons, List.foldlM_nil, bind_eq_ok, pure_eq_ok, exists_eq_right,
    projectAggregate_of_host hhost, projectAggregate_of_installation hinstallation]
  exact ⟨hosts, hhosts, htables⟩

theorem reaches_requiredInstallation : Preserves (Reaches world footprint) requiredInstallation :=
  Preserves.then (reaches_select _) fun _ => reaches_expect _ _

theorem initializeHub_reaches {context : CommandContext}
    {hostName hostPublicKey hostNoisePublicKey installationPublicKey : String}
    (henrolled : ∀ host, footprint.produces (.hostEnrolled host))
    (hcreated : ∀ installation, footprint.produces (.installationCreated installation)) :
    Preserves (Reaches world footprint)
      (initializeHub world context hostName hostPublicKey hostNoisePublicKey
        installationPublicKey) := by
  refine Preserves.then (reaches_lift _) fun _ => Preserves.then (reaches_select _)
    fun installation => ?_
  cases installation with
  | some existing => exact reaches_pure existing
  | none =>
      intro store _
      refine moves_of_rollsBack ?_ ?_
      · refine RollsBack.after rollback_rollback undone_utcNow fun now => ?_
        refine RollsBack.after rollback_rollback undone_newId fun hostId => ?_
        refine RollsBack.after rollback_rollback undone_newId fun installationId => ?_
        refine RollsBack.after rollback_rollback undone_singleSubject fun enrolled => ?_
        refine RollsBack.after rollback_rollback undone_singleSubject fun created => ?_
        exact RollsBack.returning (rollsBack_transaction _) _
      · simp only [appendJournalEntriesWith, ensures_bind, ensures_utcNow, ensures_newId,
          ensures_singleSubject, ensures_transaction, ensures_pure]
        refine ensures_mono (ensures_appendDecorated rfl (by simp [JournalSubject.kind])
          (by simp [LawfulAggregate]) ?_ projectsAggregates_initializing) fun _ _ h => .trans (.single (.drew store _)) h.1
        simp only [List.cons_append, List.nil_append, List.mem_cons, List.not_mem_nil, or_false,
          forall_eq_or_imp, forall_eq]
        exact ⟨henrolled _, hcreated _⟩

theorem rollsBack_appendInstallationEvent {context : CommandContext} {command : String}
    {request : CommandRequest} {payload : JournalEvent} :
    RollsBack rollback (appendInstallationEvent world context command request payload) := by
  refine RollsBack.after rollback_rollback undone_requiredInstallation fun installation => ?_
  refine RollsBack.after rollback_rollback undone_singleSubject fun subjects => ?_
  exact RollsBack.returning (rollsBack_transaction _) _

theorem appendInstallationEvent_reaches {context : CommandContext} {command : String}
    {request : CommandRequest} {payload : JournalEvent}
    (hpayload : isInstallationPayload payload = true)
    (hlawful : ∀ tables, LawfulAggregate tables [payload] payload)
    (hproduces : footprint.produces payload) :
    Preserves (Reaches world footprint)
      (appendInstallationEvent world context command request payload) := by
  intro store _
  apply moves_of_rollsBack rollsBack_appendInstallationEvent
  simp only [appendInstallationEvent, requiredInstallation, appendJournalEntriesWith,
    ensures_bind, ensures_select, ensures_expect, ensures_singleSubject, ensures_transaction,
    ensures_pure]
  intro installation _
  refine ensures_mono (ensures_appendDecorated rfl (by simp [JournalSubject.kind])
    (by simpa using hlawful _) (by simpa using hproduces) (projectsAggregates_of fun event hevent => ?_))
    fun _ _ h => .trans (.single (.drew store _)) h.1
  simp only [List.flatMap_cons, List.map_cons, List.map_nil, List.flatMap_nil, List.append_nil,
    List.mem_singleton] at hevent
  exact projectAggregate_of_installation (by rw [hevent]; exact hpayload)

theorem setRelayUrl_reaches {context : CommandContext} {relayUrl : String}
    (hproduces : ∀ hostId,
      footprint.produces (.relayChanged (some relayUrl) (some hostId))) :
    Preserves (Reaches world footprint) (setRelayUrl world context relayUrl) :=
  Preserves.then reaches_requiredInstallation fun _ =>
    appendInstallationEvent_reaches rfl (fun _ => trivial) (hproduces _)

theorem ensures_decideProviderDefaults {change : ProviderDefaults → ProviderDefaults}
    (hproduces : ∀ defaults, footprint.produces (.providerDefaultsChanged defaults)) :
    ensures (decideProviderDefaults world change) store
      (Decided footprint applyInstallationEvents store) := by
  simp only [decideProviderDefaults, requiredInstallation, ensures_bind, ensures_select,
    ensures_expect, ensures_singleSubject, ensures_pure]
  exact fun installation _ => decided_installation ⟨_, rfl⟩ (by simp [JournalSubject.kind]) rfl
    trivial (hproduces _)

theorem ensures_decideMoveHub {expected target : HostId}
    (hproduces : ∀ generation, footprint.produces (.hubChanged target generation)) :
    ensures (decideMoveHub world expected target) store
      (Decided footprint applyInstallationEvents store) := by
  simp only [decideMoveHub, requiredInstallation, ensures_bind, ensures_select, ensures_expect,
    ensures_require, ensures_singleSubject, ensures_pure]
  exact fun hactive installation hinstallation _ =>
    decided_installation ⟨_, rfl⟩ (by simp [JournalSubject.kind]) rfl
      ⟨rfl, hactive, installation, hinstallation, rfl⟩ (hproduces _)

theorem setProviderDefaults_reaches {context : CommandContext} {command : String}
    {request : CommandRequest} {change : ProviderDefaults → ProviderDefaults}
    (hproduces : ∀ defaults, footprint.produces (.providerDefaultsChanged defaults)) :
    Preserves (Reaches world footprint)
      (setProviderDefaults world context command request change) :=
  Preserves.then (transactCommand_reaches fun _ => ensures_decideProviderDefaults hproduces)
    fun _ => reaches_pure _

theorem moveHub_reaches {context : CommandContext} {expected target : HostId}
    (hproduces : ∀ generation, footprint.produces (.hubChanged target generation)) :
    Preserves (Reaches world footprint) (moveHub world context expected target) :=
  Preserves.then (transactCommand_reaches fun _ => ensures_decideMoveHub hproduces)
    fun _ => reaches_pure _

end Installations

end Aggregates

end Store

end Mews
