import Mews.Store.Runs

/-!
# What the aggregate entries change

The inversions of the aggregate projections, the tables a Session entry leaves alone,
and the rule by which a property of the aggregate tables holds between the ends
of a run.
-/

namespace Mews

open Protocol Table

namespace Projection

open Store

variable {world : World} {tables tables' : Projection} {event : JournalEntry}

/-- What projecting an Agent entry does. -/
inductive AgentChange (tables : Projection) (event : JournalEntry) : Projection → Prop
  | created (agent : Agent) (initialRevision : AgentRevision)
      (hpayload : event.payload = .agentCreated agent initialRevision)
      (hnew : ∀ other ∈ tables.agents, other.id ≠ agent.id ∧ other.slug ≠ agent.slug)
      (hauthor : tables.hostExists initialRevision.authorHostId = true) :
      AgentChange tables event { tables with
        agents := tables.agents ++ [agent]
        agentRevisions := tables.agentRevisions ++ [initialRevision] }
  | revised (revision : AgentRevision) (hpayload : event.payload = .agentRevisionCreated revision)
      (hauthor : tables.hostExists revision.authorHostId = true)
      (hcurrent : tables.agents.countP (fun agent => agent.id = revision.agentId ∧
        agent.currentRevision = revision.revision - 1 ∧ agent.archived = false) = 1) :
      AgentChange tables event { tables with
        agents := updateWhere (fun agent => agent.id = revision.agentId ∧
            agent.currentRevision = revision.revision - 1 ∧ agent.archived = false)
          (fun agent => { agent with currentRevision := revision.revision }) tables.agents
        agentRevisions := tables.agentRevisions ++ [revision] }
  | renamed (slug : String) (hpayload : event.payload = .agentRenamed slug)
      (hslug : ∀ agent ∈ tables.agents, agent.slug = slug →
        agent.id.asStr = event.subject.id ∧ agent.archived = false) :
      AgentChange tables event { tables with
        agents := updateWhere
          (fun agent => agent.id.asStr = event.subject.id ∧ agent.archived = false)
          (fun agent => { agent with slug }) tables.agents }
  | archived (hpayload : event.payload = .agentArchived) :
      AgentChange tables event { tables with
        agents := updateWhere
          (fun agent => agent.id.asStr = event.subject.id ∧ agent.archived = false)
          (fun agent => { agent with archived := true }) tables.agents }
  | ignored : AgentChange tables event tables

theorem projectAgent_change (hproject : tables.projectAgent event = .ok tables') :
    AgentChange tables event tables' := by
  rw [projectAgent] at hproject
  split at hproject
  · rename_i agent initialRevision hpayload
    simp only [createAgent, insertRevision, bind_eq_ok, exists_unit, demand_eq_ok,
      pure_eq_ok] at hproject
    obtain ⟨hnew, -, hauthor, rfl⟩ := hproject
    exact .created agent initialRevision hpayload hnew hauthor.2
  · rename_i revision hpayload
    simp only [createRevision, insertRevision, bind_eq_ok, exists_unit, demand_eq_ok,
      pure_eq_ok] at hproject
    obtain ⟨_, ⟨-, hauthor, rfl⟩, hproject⟩ := hproject
    split at hproject
    · rename_i hcurrent
      obtain rfl := pure_eq_ok.mp hproject
      exact .revised revision hpayload hauthor.2 hcurrent
    · split at hproject <;> simp [throw, throwThe, MonadExceptOf.throw] at hproject
  · rename_i slug hpayload
    simp only [renameAgent, bind_eq_ok, exists_unit, demand_eq_ok, pure_eq_ok] at hproject
    obtain ⟨⟨-, hslug⟩, rfl⟩ := hproject
    exact .renamed slug hpayload hslug
  · rename_i hpayload
    simp only [archiveAgent, bind_eq_ok, exists_unit, demand_eq_ok, pure_eq_ok] at hproject
    obtain ⟨-, rfl⟩ := hproject
    exact .archived hpayload
  · cases hproject
    exact .ignored

/-- What projecting a Host entry does. -/
inductive HostChange (tables : Projection) (event : JournalEntry) : Projection → Prop
  | enrolled (host : Host) (hpayload : event.payload = .hostEnrolled host)
      (hnew : ∀ other ∈ tables.hosts, other.host.id ≠ host.id) :
      HostChange tables event { tables with hosts := tables.hosts ++ [{ host, revoked := false }] }
  | revoked (hostId : HostId) (hpayload : event.payload = .hostRevoked hostId) :
      HostChange tables event { tables with
        hosts := updateWhere (fun row => row.host.id = hostId ∧ row.revoked = false ∧
            tables.installation.any fun installation => installation.hubHostId ≠ row.host.id)
          (fun row => { row with revoked := true }) tables.hosts }
  | invited (invitations : List InvitationRow) :
      HostChange tables event { tables with invitations }

theorem projectHost_change (hproject : tables.projectHost event = .ok tables') :
    HostChange tables event tables' := by
  rw [projectHost] at hproject
  split at hproject
  · rename_i host hpayload
    simp only [enrollHost, bind_eq_ok, exists_unit, demand_eq_ok, pure_eq_ok] at hproject
    obtain ⟨hnew, rfl⟩ := hproject
    exact .enrolled host hpayload fun other hother => (hnew other hother).1
  · rename_i hostId hpayload
    simp only [revokeHost, bind_eq_ok, exists_unit, demand_eq_ok, pure_eq_ok] at hproject
    obtain ⟨-, rfl⟩ := hproject
    exact .revoked hostId hpayload
  · simp only [createInvitation, bind_eq_ok, exists_unit, demand_eq_ok, pure_eq_ok] at hproject
    obtain ⟨-, rfl⟩ := hproject
    exact .invited _
  · simp only [consumeInvitation, bind_eq_ok, updateOne_eq_ok, pure_eq_ok] at hproject
    obtain ⟨_, -, rfl⟩ := hproject
    exact .invited _
  · cases hproject
    exact .invited tables.invitations

/-- What projecting an installation entry does. -/
inductive InstallationChange (tables : Projection) (event : JournalEntry) : Projection → Prop
  | created (installation : Installation) (hpayload : event.payload = .installationCreated installation)
      (hnone : tables.installation = none)
      (hhub : tables.hostExists installation.hubHostId = true) :
      InstallationChange tables event { tables with installation := some installation }
  | relayed (relayUrl : Option String) (hostId : Option HostId)
      (hpayload : event.payload = .relayChanged relayUrl hostId) :
      InstallationChange tables event (tables.changeRelay relayUrl hostId)
  | settled (settings : ProviderDefaults) :
      InstallationChange tables event { tables with settings }
  | moved (hostId : HostId) (generation : Nat) (hpayload : event.payload = .hubChanged hostId generation) :
      InstallationChange tables event { tables with
        installation := tables.installation.map fun installation =>
          { installation with hubHostId := hostId, generation } }

theorem projectInstallation_change (hproject : tables.projectInstallation event = .ok tables') :
    InstallationChange tables event tables' := by
  rw [projectInstallation] at hproject
  split at hproject
  · rename_i installation hpayload
    simp only [createInstallation, bind_eq_ok, exists_unit, demand_eq_ok, pure_eq_ok] at hproject
    obtain ⟨⟨hnone, hhub⟩, rfl⟩ := hproject
    exact .created installation hpayload hnone hhub
  · rename_i relayUrl hostId hpayload
    cases hproject
    exact .relayed relayUrl hostId hpayload
  · cases hproject
    exact .settled _
  · rename_i hostId generation hpayload
    simp only [changeHub, bind_eq_ok, exists_unit, demand_eq_ok, pure_eq_ok] at hproject
    obtain ⟨-, rfl⟩ := hproject
    exact .moved hostId generation hpayload
  · cases hproject
    exact .settled tables.settings

/-- An entry is projected by one aggregate, and the others leave it alone. -/
theorem projectAggregate_hosts (hproject : tables.projectAggregate event = .ok tables') :
    HostChange tables event tables' ∨ InstallationChange tables event tables' ∨
      tables'.hosts = tables.hosts ∧ tables'.installation = tables.installation := by
  by_cases hhost : isHostPayload event.payload = true
  · rw [projectAggregate_of_host hhost] at hproject
    exact .inl (projectHost_change hproject)
  by_cases hinstallation : isInstallationPayload event.payload = true
  · rw [projectAggregate_of_installation hinstallation] at hproject
    exact .inr (.inl (projectInstallation_change hproject))
  refine .inr (.inr ?_)
  by_cases hagent : isAgentPayload event.payload = true
  · rw [projectAggregate_of_agent hagent] at hproject
    obtain ⟨agents, agentRevisions, rfl, -⟩ := projectAgent_writes hproject
    exact ⟨rfl, rfl⟩
  · have hkept : tables.projectAggregate event = .ok tables := by
      cases hpayload : event.payload <;> simp_all [isHostPayload, isInstallationPayload,
        isAgentPayload, projectAggregate, projectAgent, projectHost, projectInstallation, bind,
        Except.bind]
    rw [hkept, Except.ok.injEq] at hproject
    rw [hproject]
    exact ⟨rfl, rfl⟩

/-- Of the three projections only the first writes Agents. -/
theorem projectAggregate_agents (hproject : tables.projectAggregate event = .ok tables') :
    ∃ middle, AgentChange tables event middle ∧ tables'.agents = middle.agents ∧
      tables'.agentRevisions = middle.agentRevisions := by
  simp only [projectAggregate, bind_eq_ok] at hproject
  obtain ⟨middle, hagent, _, hhost, hinstallation⟩ := hproject
  obtain ⟨hosts, invitations, rfl⟩ := projectHost_writes hhost
  obtain ⟨hosts', installation, settings, rfl⟩ := projectInstallation_writes hinstallation
  exact ⟨middle, projectAgent_change hagent, rfl, rfl⟩

/-- The tables a Session entry leaves alone. -/
structure SameAggregates (tables tables' : Projection) : Prop where
  hosts_eq : tables'.hosts = tables.hosts
  installation_eq : tables'.installation = tables.installation
  agents_eq : tables'.agents = tables.agents
  revisions_eq : tables'.agentRevisions = tables.agentRevisions

theorem Placed.sameAggregates {sessionId : SessionId} {entryId : MessageId}
    {payload : SessionEntryPayload} {contextual : Bool} {key : Option String}
    {createdAt : DateTime} {entry : SessionEntry}
    (hplaced : Placed tables sessionId entryId payload contextual key createdAt tables' entry) :
    SameAggregates tables tables' := by
  rw [hplaced.tables_eq]
  exact ⟨rfl, rfl, rfl, rfl⟩

theorem SessionChange.sameAggregates {sessionId : SessionId} {delivery : Option Delivery}
    (hchange : SessionChange world tables sessionId event tables' delivery) :
    SameAggregates tables tables' := by
  cases hchange with
  | entryAppended _ _ _ _ _ _ _ _ hplaced => exact hplaced.sameAggregates
  | turnAccepted _ _ _ _ _ _ _ _ _ hplaced =>
      obtain ⟨hhosts, hinstallation, hagents, hrevisions⟩ := hplaced.sameAggregates
      exact ⟨hhosts, hinstallation, hagents, hrevisions⟩
  | turnStarted _ _ _ _ _ _ hplaced =>
      obtain ⟨hhosts, hinstallation, hagents, hrevisions⟩ := hplaced.sameAggregates
      exact ⟨hhosts, hinstallation, hagents, hrevisions⟩
  | turnEnded _ _ _ _ _ _ _ _ _ hplaced =>
      obtain ⟨hhosts, hinstallation, hagents, hrevisions⟩ := hplaced.sameAggregates
      exact ⟨hhosts, hinstallation, hagents, hrevisions⟩
  | _ => exact ⟨rfl, rfl, rfl, rfl⟩

end Projection

namespace Store

open Projection

variable {world : World} {footprint : Footprint} {store store' : Store}

/-- The batch an event is recorded in was lawful where the event is projected. -/
theorem LawfulAggregate.of_batch {start tables : Projection} {done events : List JournalEntry}
    {event : JournalEntry}
    (hlawful : LawfulAggregate start ((done ++ event :: events).map (·.payload)) event.payload)
    (hdone : done.foldlM Projection.projectAggregate start = .ok tables) :
    ∃ batch, LawfulAggregate tables batch event.payload := by
  cases hpayload : event.payload with
  | hubChanged hostId generation =>
      rw [hpayload] at hlawful
      obtain ⟨hbatch, hlawful⟩ := hlawful
      cases done with
      | nil =>
          cases hdone
          exact ⟨[.hubChanged hostId generation], rfl, hlawful⟩
      | cons first done => simp at hbatch
  | _ =>
      rw [hpayload] at hlawful
      exact ⟨[], hlawful⟩

/-- A relation that holds across every lawful Session entry and across every
lawful aggregate entry holds between the ends of a chain of moves. -/
theorem Moves.tables_related (R : Projection → Projection → Prop) (hrefl : ∀ tables, R tables tables)
    (htrans : ∀ first second third, R first second → R second third → R first third)
    (hsession : ∀ tables tables', LawfulChange world footprint.closing tables tables' →
      R tables tables')
    (haggregate : ∀ tables tables' event batch, LawfulAggregate tables batch event.payload →
      footprint.produces event.payload → tables.projectAggregate event = .ok tables' →
      R tables tables')
    (hmoves : Moves world footprint store store') : R store.projection store'.projection := by
  have hbatch : ∀ (start : Projection) (done events : List JournalEntry) (tables tables' : Projection),
      (∀ event ∈ done ++ events, LawfulAggregate start ((done ++ events).map (·.payload))
        event.payload ∧ footprint.produces event.payload) →
      done.foldlM projectAggregate start = .ok tables →
      events.foldlM projectAggregate tables = .ok tables' → R tables tables' := by
    intro start done events
    induction events generalizing done with
    | nil =>
        rintro tables _ - - ⟨⟩
        exact hrefl tables
    | cons event events ih =>
        intro tables tables' hlawful hdone hevents
        rw [List.foldlM_cons, bind_eq_ok] at hevents
        obtain ⟨middle, hevent, hevents⟩ := hevents
        obtain ⟨hevent', hproduces⟩ := hlawful event (by simp)
        obtain ⟨batch, hbatch⟩ := LawfulAggregate.of_batch hevent' hdone
        refine htrans _ _ _ (haggregate tables middle event batch hbatch hproduces hevent) ?_
        refine ih (done ++ [event]) middle tables' (by simpa using hlawful) ?_ hevents
        rw [List.foldlM_append, bind_eq_ok]
        exact ⟨tables, hdone, by simp [hevent]⟩
  induction hmoves with
  | refl => exact hrefl _
  | tail _ hmove ih =>
      refine htrans _ _ _ ih ?_
      cases hmove with
      | projected sessionId entry tables delivery hsubject _ _ hlawful _ hproject =>
          rw [publish_projection]
          exact hsession _ _ ⟨sessionId, entry, delivery, hsubject, hlawful,
            projectSession_change hsubject hproject⟩
      | aggregated entries tables _ _ _ _ hlawful hproduces hproject =>
          exact hbatch _ [] entries _ _
            (fun event hevent => ⟨hlawful event hevent, hproduces event hevent⟩) rfl hproject
      | delivered _ hmove =>
          rw [hmove.keeps.1]
          exact hrefl _
      | _ => exact hrefl _

/-- An invariant of the tables that every lawful entry keeps. -/
theorem Moves.tables_invariant (Inv : Projection → Prop)
    (hsession : ∀ tables tables', LawfulChange world footprint.closing tables tables' →
      Inv tables → Inv tables')
    (haggregate : ∀ tables tables' event batch, LawfulAggregate tables batch event.payload →
      tables.projectAggregate event = .ok tables' → Inv tables → Inv tables')
    (hmoves : Moves world footprint store store') (hinv : Inv store.projection) :
    Inv store'.projection :=
  Moves.tables_related (fun tables tables' => Inv tables → Inv tables') (fun _ h => h)
    (fun _ _ _ hfirst hsecond hinv => hsecond (hfirst hinv)) hsession
    (fun tables tables' event batch hlawful _ hproject =>
      haggregate tables tables' event batch hlawful hproject) hmoves hinv

end Store

end Mews
