import Mews.Hub.Service
import Mews.Store.Hub

/-!
# Removed Hosts

`RemoveHost` revokes the row of a Host and then takes its connection out of the map of
connected Hosts.  The links to a Host check its row when they begin to connect, and stay
open afterwards; a Turn keeps the connection it has taken out of the map.  A step is
what one task does between two await points.
-/

namespace Mews

open Protocol Projection Table Tx

/-! ## Revoked rows -/

/-- The Host is enrolled under this id no longer. -/
structure Projection.Revoked (hostId : HostId) (tables : Projection) : Prop where
  known : ∃ row ∈ tables.hosts, row.host.id = hostId
  revoked : ∀ row ∈ tables.hosts, row.host.id = hostId → row.revoked = true

namespace Projection

variable {hostId : HostId} {tables tables' : Projection} {event : JournalEntry}

theorem Revoked.congr (hrevoked : tables.Revoked hostId) (hhosts : tables'.hosts = tables.hosts) :
    tables'.Revoked hostId :=
  ⟨hhosts ▸ hrevoked.known, hhosts ▸ hrevoked.revoked⟩

/-- Rows keep their ids, and their revocation. -/
theorem Revoked.update (hrevoked : tables.Revoked hostId) {matched : HostRow → Bool}
    {change : HostRow → HostRow} (hhosts : tables'.hosts = updateWhere matched change tables.hosts)
    (hid : ∀ row, (change row).host.id = row.host.id)
    (hkept : ∀ row, row.revoked = true → (change row).revoked = true) :
    tables'.Revoked hostId := by
  obtain ⟨row, hrow, hrowId⟩ := hrevoked.known
  constructor
  · rw [hhosts]
    refine ⟨if matched row then change row else row, mem_updateWhere.mpr ⟨row, hrow, rfl⟩, ?_⟩
    split_ifs
    · rw [hid, hrowId]
    · exact hrowId
  · rw [hhosts]
    intro changed hchanged hchangedId
    obtain ⟨old, hold, rfl⟩ := mem_updateWhere.mp hchanged
    split_ifs at hchangedId ⊢
    · rw [hid] at hchangedId
      exact hkept old (hrevoked.revoked old hold hchangedId)
    · exact hrevoked.revoked old hold hchangedId

theorem Revoked.host (hrevoked : tables.Revoked hostId) (hchange : HostChange tables event tables') :
    tables'.Revoked hostId := by
  cases hchange with
  | enrolled host _ hnew =>
      obtain ⟨row, hrow, hid⟩ := hrevoked.known
      refine ⟨⟨row, List.mem_append_left _ hrow, hid⟩, ?_⟩
      intro other hother hotherId
      rcases List.mem_append.mp hother with hother | hother
      · exact hrevoked.revoked other hother hotherId
      · obtain rfl := List.mem_singleton.mp hother
        exact absurd (hid.trans hotherId.symm) (hnew row hrow)
  | revoked => exact hrevoked.update rfl (fun _ => rfl) (fun _ _ => rfl)
  | invited => exact hrevoked.congr rfl

theorem Revoked.installation (hrevoked : tables.Revoked hostId)
    (hchange : InstallationChange tables event tables') : tables'.Revoked hostId := by
  cases hchange with
  | relayed relayUrl owner =>
      exact hrevoked.update rfl (fun _ => rfl) (fun _ hold => hold)
  | _ => exact hrevoked.congr rfl

theorem Revoked.aggregate (hrevoked : tables.Revoked hostId)
    (hproject : tables.projectAggregate event = .ok tables') : tables'.Revoked hostId := by
  simp only [projectAggregate, bind_eq_ok] at hproject
  obtain ⟨first, hagent, second, hhost, hinstallation⟩ := hproject
  obtain ⟨agents, agentRevisions, rfl, -⟩ := projectAgent_writes hagent
  have hfirst : Revoked hostId { tables with agents, agentRevisions } := hrevoked.congr rfl
  exact (hfirst.host (projectHost_change hhost)).installation
    (projectInstallation_change hinstallation)

theorem not_hostActive (hrevoked : tables.Revoked hostId) :
    Store.hostActive hostId tables = false := by
  rw [Store.hostActive, List.any_eq_false]
  intro row hrow hactive
  simp only [decide_eq_true_eq] at hactive
  rw [hrevoked.revoked row hrow hactive.1] at hactive
  cases hactive.2

end Projection

namespace Store

variable {world : World} {footprint : Footprint} {store store' : Store} {hostId : HostId}

theorem Moves.revoked (hmoves : Moves world footprint store store')
    (hrevoked : store.projection.Revoked hostId) : store'.projection.Revoked hostId := by
  refine hmoves.tables_invariant (Revoked hostId) ?_ ?_ hrevoked
  · rintro tables tables' ⟨sessionId, event, delivery, -, -, hchange⟩ hrevoked
    exact hrevoked.congr hchange.sameAggregates.hosts_eq
  · intro tables tables' event batch _ hproject hrevoked
    exact hrevoked.aggregate hproject

theorem runs_decideRevokeHost {decision : Unit × List JournalSubjectAppend} :
    Runs (decideRevokeHost world hostId) store decision store' ↔
      hostActive hostId store.projection = true ∧ ∃ installation,
        store.projection.installation = some installation ∧ installation.hubHostId ≠ hostId ∧
        decision = ((), [{ subject := .host hostId, entries :=
          [⟨⟨world.uuid store.drawn⟩, .system, none, .hostRevoked hostId⟩] }]) ∧
        store' = { store with drawn := store.drawn + 1 } := by
  simp only [decideRevokeHost, requiredInstallation, runs_bind, select, runs_reads_iff,
    runs_require_iff, runs_expect_iff, runs_singleSubject_iff, runs_pure_iff]
  constructor
  · rintro ⟨installation, _, ⟨_, _, ⟨rfl, rfl⟩, hsome, rfl⟩, _, _, ⟨hhub, rfl⟩, _, _, ⟨rfl, rfl⟩, _,
      _, ⟨hactive, rfl⟩, _, _, ⟨rfl, rfl⟩, rfl, rfl⟩
    exact ⟨hactive, installation, hsome, hhub, rfl, rfl⟩
  · rintro ⟨hactive, installation, hsome, hhub, rfl, rfl⟩
    exact ⟨installation, _, ⟨_, _, ⟨rfl, rfl⟩, hsome, rfl⟩, (), _, ⟨hhub, rfl⟩, _, _, ⟨rfl, rfl⟩,
      (), _, ⟨hactive, rfl⟩, _, _, ⟨rfl, rfl⟩, rfl, rfl⟩

/-- A revocation that is not a retry leaves no row of the Host unrevoked. -/
theorem revoked_of_revokeHost {context : CommandContext}
    (hnone : store.selectCommandReceipt (context.operationId "revoke_host") = none)
    (hrun : Runs (revokeHost world context hostId) store () store') :
    store'.projection.Revoked hostId := by
  rw [revokeHost, runs_bind] at hrun
  obtain ⟨outcome, reached, hrun, hpure⟩ := hrun
  obtain ⟨-, rfl⟩ := runs_pure_iff.mp hpure
  obtain ⟨subjects, decided, appended, hdecide, -, happend⟩ :=
    (runs_transactCommand_first hnone).mp hrun
  obtain ⟨hactive, installation, hsome, hhub, hdecision, rfl⟩ := runs_decideRevokeHost.mp hdecide
  obtain ⟨-, rfl⟩ := Prod.mk.inj hdecision
  obtain ⟨-, -, committed, tables, rfl, hproject, -, rfl⟩ := (runs_append_one rfl rfl hnone).mp happend
  change Projection.revokeHost store.projection hostId = _ at hproject
  simp only [Projection.revokeHost, bind_eq_ok, exists_unit, demand_eq_ok, pure_eq_ok] at hproject
  obtain ⟨-, rfl⟩ := hproject
  obtain ⟨row, hrow, hid, -⟩ := exists_of_hostActive hactive
  constructor
  · refine ⟨_, mem_updateWhere.mpr ⟨row, hrow, rfl⟩, ?_⟩
    split_ifs <;> exact hid
  · intro changed hchanged hchangedId
    obtain ⟨old, hold, rfl⟩ := mem_updateWhere.mp hchanged
    split_ifs at hchangedId ⊢ with hmatched
    · rfl
    · -- a row of the Host that is not matched has been revoked before
      by_contra hunrevoked
      apply hmatched
      simp [hchangedId, hsome, hhub, Bool.eq_false_iff.mpr hunrevoked]

end Store

/-! ## Links, Turns and removals -/

namespace RemovedHosts

/-- The requests of a Host, by the place where `dispatch` serves them. -/
inductive RequestKind where
  | pollEvents
  | pollJournalEntries
  | startTurn
  /-- Every other request runs under a command context. -/
  | command
  deriving DecidableEq, Repr

abbrev LinkId := Nat

inductive LinkPhase where
  /-- The row of the Host has been checked. -/
  | connecting
  | opened
  | closed
  deriving DecidableEq, Repr

structure HostLink where
  hostId : HostId
  phase : LinkPhase
  deriving DecidableEq, Repr

/-- The task of a Turn on a remote Host, with the connection it has taken. -/
structure RemoteTurn where
  hostId : HostId
  connection : Option LinkId
  deriving DecidableEq, Repr

inductive HubEvent where
  /-- `RemoveHost` has answered. -/
  | removed (hostId : HostId)
  /-- A request of the Host is served. -/
  | accepted (hostId : HostId) (kind : RequestKind)
  /-- A tool, a hook or an ACP Turn is sent to the Host. -/
  | worked (hostId : HostId)
  deriving DecidableEq, Repr

def HubEvent.serves (hostId : HostId) : HubEvent → Prop
  | .accepted served _ | .worked served => served = hostId
  | .removed _ => False

structure Hub where
  store : Store
  remoteHosts : HostId → Option LinkId
  links : LinkId → Option HostLink
  turns : TurnId → Option RemoteTurn
  /-- The removals that have revoked their row, and those that wait for the map. -/
  revoked : List (RequestId × HostId)
  removing : List (RequestId × HostId)
  log : List HubEvent

inductive Action where
  | command (op : StoreOp)
  | check (link : LinkId) (hostId : HostId)
  | publish (link : LinkId)
  | close (link : LinkId)
  | request (link : LinkId) (kind : RequestKind)
  | spawn (turnId : TurnId) (hostId : HostId)
  | take (turnId : TurnId)
  | work (turnId : TurnId)
  | finish (turnId : TurnId)
  | revoke (requestId : RequestId) (actor : EventActor) (hostId : HostId)
  | answer (requestId : RequestId) (hostId : HostId)
  deriving DecidableEq

/-- `dispatch` serves these before it has a command context and checks the Host. -/
def RequestKind.early : RequestKind → Bool
  | .pollEvents | .pollJournalEntries | .startTurn => true
  | .command => false

namespace Hub

def start (store : Store) : Hub where
  store := store
  remoteHosts := fun _ => none
  links := fun _ => none
  turns := fun _ => none
  revoked := []
  removing := []
  log := []

variable (world : World) (hub : Hub)

/-- `Mews::ensure_host`. -/
def ensureHost (hostId : HostId) : Bool := Store.hostActive hostId hub.store.projection

def removal (requestId : RequestId) (actor : EventActor) : CommandContext where
  commandId := requestId.asStr
  actor := actor
  correlationId := none

/-- A request id names one request, so that a receipt under it is its own. -/
def revoke (requestId : RequestId) (actor : EventActor) (hostId : HostId) : Option Hub :=
  let context := removal requestId actor
  if (hub.store.selectCommandReceipt (context.operationId "revoke_host")).isSome ∧
      (requestId, hostId) ∉ hub.revoked then none
  else
    match Store.revokeHost world context hostId hub.store with
    | (.ok (), store) =>
        some
          { hub with
            store
            revoked := hub.revoked ++ [(requestId, hostId)]
            removing := hub.removing ++ [(requestId, hostId)] }
    | (.error _, store) => some { hub with store }

def step : Action → Option Hub
  | .command op => some { hub with store := Store.step world hub.store op }
  | .check link hostId =>
      if hub.ensureHost hostId ∧ hub.links link = none then
        some { hub with links := Function.update hub.links link (some ⟨hostId, .connecting⟩) }
      else none
  | .publish link =>
      match hub.links link with
      | some ⟨hostId, .connecting⟩ =>
          some
            { hub with
              links := Function.update hub.links link (some ⟨hostId, .opened⟩)
              remoteHosts := Function.update hub.remoteHosts hostId (some link) }
      | _ => none
  | .close link =>
      match hub.links link with
      | some ⟨hostId, _⟩ =>
          some
            { hub with
              links := Function.update hub.links link (some ⟨hostId, .closed⟩)
              remoteHosts :=
                if hub.remoteHosts hostId = some link then Function.update hub.remoteHosts hostId none
                else hub.remoteHosts }
      | none => none
  | .request link kind =>
      match hub.links link with
      | some ⟨hostId, .opened⟩ =>
          if kind.early ∨ hub.ensureHost hostId then
            some { hub with log := hub.log ++ [.accepted hostId kind] }
          else some hub
      | _ => none
  | .spawn turnId hostId =>
      if hub.turns turnId = none ∧ (hub.remoteHosts hostId).isSome then
        some { hub with turns := Function.update hub.turns turnId (some ⟨hostId, none⟩) }
      else none
  | .take turnId =>
      match hub.turns turnId with
      | some ⟨hostId, none⟩ =>
          match hub.remoteHosts hostId with
          | some link =>
              some
                { hub with turns := Function.update hub.turns turnId (some ⟨hostId, some link⟩) }
          | none => none
      | _ => none
  | .work turnId =>
      match hub.turns turnId with
      | some ⟨hostId, some link⟩ =>
          if hub.links link = some ⟨hostId, .opened⟩ then
            some { hub with log := hub.log ++ [.worked hostId] }
          else none
      | _ => none
  | .finish turnId => some { hub with turns := Function.update hub.turns turnId none }
  | .revoke requestId actor hostId => hub.revoke world requestId actor hostId
  | .answer requestId hostId =>
      if (requestId, hostId) ∈ hub.removing then
        some
          { hub with
            remoteHosts := Function.update hub.remoteHosts hostId none
            removing := hub.removing.erase (requestId, hostId)
            log := hub.log ++ [.removed hostId] }
      else none

/-- `ListHosts`: the enrolled Hosts, and whether they are connected. -/
def hostStatuses : List (Host × Bool) :=
  hub.store.hosts.map fun host =>
    (host, (hub.store.projection.installation.any fun installation =>
      decide (installation.hubHostId = host.id)) || (hub.remoteHosts host.id).isSome)

/-- A Hub that starts on the database that some commands have left. -/
inductive Run : Hub → Prop
  | start (ops : List StoreOp) : Run (start (Store.run world ops))
  | step {hub hub' : Hub} {action : Action} (hrun : Run hub)
      (hstep : hub.step world action = some hub') : Run hub'

/-- What `RemoveHost` has answered for is neither served nor listed. -/
structure Unserved : Prop where
  served : hub.log.Pairwise fun earlier later =>
    ∀ hostId, earlier = .removed hostId → ¬later.serves hostId
  listed : ∀ hostId, .removed hostId ∈ hub.log → ∀ host connected,
    (host, connected) ∈ hub.hostStatuses → host.id ≠ hostId

/-- A removal is answered while no Turn has a connection of the Host, a Turn takes the
connection of an enrolled Host, and what is served early is a request of one. -/
def Careful : Action → Prop
  | .answer _ hostId =>
      ∀ turnId turn, hub.turns turnId = some turn → turn.hostId = hostId → turn.connection = none
  | .take turnId =>
      ∀ turn, hub.turns turnId = some turn → hub.ensureHost turn.hostId = true
  | .request link kind =>
      kind.early = true → ∀ hostId, hub.links link = some ⟨hostId, .opened⟩ →
        hub.ensureHost hostId = true
  | _ => True

inductive CarefulRun : Hub → Prop
  | start (ops : List StoreOp) : CarefulRun (start (Store.run world ops))
  | step {hub hub' : Hub} {action : Action} (hrun : CarefulRun hub) (hcareful : hub.Careful action)
      (hstep : hub.step world action = some hub') : CarefulRun hub'

/-- What a careful run keeps of every Host that has been removed. -/
structure Invariant : Prop where
  keyed : hub.store.projection.Keyed
  revoked : ∀ removal ∈ hub.revoked, hub.store.projection.Revoked removal.2
  removing : ∀ removal ∈ hub.removing, hub.store.projection.Revoked removal.2
  removed : ∀ hostId, .removed hostId ∈ hub.log → hub.store.projection.Revoked hostId
  idle : ∀ hostId, .removed hostId ∈ hub.log → ∀ turnId turn, hub.turns turnId = some turn →
    turn.hostId = hostId → turn.connection = none
  served : hub.log.Pairwise fun earlier later =>
    ∀ hostId, earlier = .removed hostId → ¬later.serves hostId

variable {world hub} {hub' : Hub}

/-- The Store goes on, and the rest stays as it is. -/
theorem Invariant.stored (hinvariant : hub.Invariant) {store : Store}
    (hmoves : Store.Moves world Store.Footprint.unrestricted hub.store store)
    (hkeyed : store.projection.Keyed) : { hub with store }.Invariant where
  keyed := hkeyed
  revoked removal hremoval := hmoves.revoked (hinvariant.revoked removal hremoval)
  removing removal hremoval := hmoves.revoked (hinvariant.removing removal hremoval)
  removed hostId hremoved := hmoves.revoked (hinvariant.removed hostId hremoved)
  idle := hinvariant.idle
  served := hinvariant.served

/-- An event that does not serve a removed Host. -/
theorem Invariant.logged (hinvariant : hub.Invariant) {event : HubEvent}
    (hserves : ∀ hostId, .removed hostId ∈ hub.log → ¬event.serves hostId)
    (hremoves : ∀ hostId, event = .removed hostId → hub.store.projection.Revoked hostId ∧
      ∀ turnId turn, hub.turns turnId = some turn → turn.hostId = hostId → turn.connection = none) :
    { hub with log := hub.log ++ [event] }.Invariant where
  keyed := hinvariant.keyed
  revoked := hinvariant.revoked
  removing := hinvariant.removing
  removed hostId hremoved := by
    rcases List.mem_append.mp hremoved with hremoved | hremoved
    · exact hinvariant.removed hostId hremoved
    · exact (hremoves hostId (List.mem_singleton.mp hremoved).symm).1
  idle hostId hremoved := by
    rcases List.mem_append.mp hremoved with hremoved | hremoved
    · exact hinvariant.idle hostId hremoved
    · exact (hremoves hostId (List.mem_singleton.mp hremoved).symm).2
  served := by
    apply List.pairwise_append.mpr
    refine ⟨hinvariant.served, List.pairwise_singleton _ _, ?_⟩
    intro earlier hearlier later hlater hostId hremoved
    obtain rfl := List.mem_singleton.mp hlater
    exact hserves hostId (hremoved ▸ hearlier)

/-- A Turn that has no connection of a removed Host. -/
theorem Invariant.turned (hinvariant : hub.Invariant) {turnId : TurnId} {turn : Option RemoteTurn}
    (hidle : ∀ held, turn = some held → .removed held.hostId ∈ hub.log → held.connection = none) :
    { hub with turns := Function.update hub.turns turnId turn }.Invariant where
  keyed := hinvariant.keyed
  revoked := hinvariant.revoked
  removing := hinvariant.removing
  removed := hinvariant.removed
  idle hostId hremoved other held hheld hhost := by
    by_cases hother : other = turnId
    · rw [hother] at hheld
      change Function.update hub.turns turnId turn turnId = some held at hheld
      rw [Function.update_self] at hheld
      exact hidle held hheld (hhost ▸ hremoved)
    · change Function.update hub.turns turnId turn other = some held at hheld
      rw [Function.update_of_ne hother] at hheld
      exact hinvariant.idle hostId hremoved other held hheld hhost
  served := hinvariant.served

theorem Invariant.not_enrolled (hinvariant : hub.Invariant) {hostId : HostId}
    (hremoved : .removed hostId ∈ hub.log) : hub.ensureHost hostId = false :=
  not_hostActive (hinvariant.removed hostId hremoved)

theorem Invariant.revoke (hinvariant : hub.Invariant) {requestId : RequestId} {actor : EventActor}
    {hostId : HostId} (hrevoke : hub.revoke world requestId actor hostId = some hub') :
    hub'.Invariant := by
  rw [Hub.revoke] at hrevoke
  split_ifs at hrevoke with hknown
  have hmoves := Store.step_moves world hinvariant.keyed
    (.revokeHost (removal requestId actor) hostId)
  have hstep : Store.step world hub.store (.revokeHost (removal requestId actor) hostId) =
      (Store.revokeHost world (removal requestId actor) hostId hub.store).2 := rfl
  rw [hstep] at hmoves
  cases hrun : Store.revokeHost world (removal requestId actor) hostId hub.store with
  | mk outcome store =>
      rw [hrun] at hmoves hrevoke
      have hstored := hinvariant.stored hmoves.unrestricted (hmoves.keyed hinvariant.keyed)
      cases outcome with
      | error error =>
          obtain rfl := Option.some.inj hrevoke
          exact hstored
      | ok value =>
          obtain rfl := Option.some.inj hrevoke
          have hgone : store.projection.Revoked hostId := by
            cases hreceipt : hub.store.selectCommandReceipt
                ((removal requestId actor).operationId "revoke_host") with
            | none => exact Store.revoked_of_revokeHost hreceipt hrun
            | some receipt =>
                -- the receipt is the one of an earlier transmission
                have hearlier : (requestId, hostId) ∈ hub.revoked := by
                  by_contra hnew
                  exact hknown ⟨by rw [hreceipt]; rfl, hnew⟩
                exact hmoves.revoked (hinvariant.revoked _ hearlier)
          have hadded : ∀ removals : List (RequestId × HostId),
              (∀ removal ∈ removals, store.projection.Revoked removal.2) →
              ∀ removal ∈ removals ++ [(requestId, hostId)], store.projection.Revoked removal.2 := by
            intro removals hremovals removal hremoval
            rcases List.mem_append.mp hremoval with hremoval | hremoval
            · exact hremovals removal hremoval
            · obtain rfl := List.mem_singleton.mp hremoval
              exact hgone
          exact { hstored with
            revoked := hadded _ hstored.revoked
            removing := hadded _ hstored.removing }

theorem Invariant.step (hinvariant : hub.Invariant) {action : Action}
    (hcareful : hub.Careful action) (hstep : hub.step world action = some hub') :
    hub'.Invariant := by
  cases action with
  | command op =>
      obtain rfl := Option.some.inj hstep
      have hmoves := Store.step_moves world hinvariant.keyed op
      exact hinvariant.stored hmoves.unrestricted (hmoves.keyed hinvariant.keyed)
  | check link hostId =>
      simp only [Hub.step] at hstep
      split_ifs at hstep
      obtain rfl := Option.some.inj hstep
      exact { hinvariant with }
  | publish link =>
      simp only [Hub.step] at hstep
      split at hstep
      · obtain rfl := Option.some.inj hstep
        exact { hinvariant with }
      · cases hstep
  | close link =>
      simp only [Hub.step] at hstep
      split at hstep
      · obtain rfl := Option.some.inj hstep
        exact { hinvariant with }
      · cases hstep
  | request link kind =>
      simp only [Hub.step] at hstep
      split at hstep
      · rename_i hostId hlink
        split_ifs at hstep with hserved
        · obtain rfl := Option.some.inj hstep
          apply hinvariant.logged
          · intro removed hremoved hserves
            obtain rfl : hostId = removed := hserves
            have hgone := hinvariant.not_enrolled hremoved
            rcases hserved with hearly | henrolled
            · rw [hcareful hearly hostId hlink] at hgone
              cases hgone
            · rw [henrolled] at hgone
              cases hgone
          · intro removed hevent
            cases hevent
        · obtain rfl := Option.some.inj hstep
          exact hinvariant
      · cases hstep
  | spawn turnId hostId =>
      simp only [Hub.step] at hstep
      split_ifs at hstep
      obtain rfl := Option.some.inj hstep
      apply hinvariant.turned
      intro held hheld _
      obtain rfl := Option.some.inj hheld
      rfl
  | take turnId =>
      simp only [Hub.step] at hstep
      split at hstep
      · rename_i hostId hturn
        split at hstep
        · obtain rfl := Option.some.inj hstep
          apply hinvariant.turned
          intro held hheld hremoved
          obtain rfl := Option.some.inj hheld
          have henrolled := hcareful _ hturn
          rw [hinvariant.not_enrolled hremoved] at henrolled
          cases henrolled
        · cases hstep
      · cases hstep
  | work turnId =>
      simp only [Hub.step] at hstep
      split at hstep
      · rename_i hostId link hturn
        split_ifs at hstep
        obtain rfl := Option.some.inj hstep
        apply hinvariant.logged
        · intro removed hremoved hserves
          obtain rfl : hostId = removed := hserves
          cases hinvariant.idle hostId hremoved turnId _ hturn rfl
        · intro removed hevent
          cases hevent
      · cases hstep
  | finish turnId =>
      obtain rfl := Option.some.inj hstep
      apply hinvariant.turned
      intro held hheld
      cases hheld
  | revoke requestId actor hostId => exact hinvariant.revoke hstep
  | answer requestId hostId =>
      simp only [Hub.step] at hstep
      split_ifs at hstep with hremoving
      obtain rfl := Option.some.inj hstep
      have hlogged : { hub with log := hub.log ++ [HubEvent.removed hostId] }.Invariant := by
        apply hinvariant.logged
        · intro removed _ hserves
          exact hserves
        · intro removed hevent
          obtain rfl := HubEvent.removed.inj hevent
          exact ⟨hinvariant.removing _ hremoving, hcareful⟩
      exact { hlogged with
        removing := fun removal hremoval =>
          hinvariant.removing removal (List.mem_of_mem_erase hremoval) }

theorem invariant_of_careful (hrun : CarefulRun world hub) : hub.Invariant := by
  induction hrun with
  | start ops =>
      refine ⟨Store.run_keyed world ops, ?_, ?_, ?_, ?_, List.Pairwise.nil⟩ <;>
        intro _ hmem <;> cases hmem
  | step _ hcareful hstep ih => exact ih.step hcareful hstep

theorem listed_enrolled {host : Host} {connected : Bool}
    (hlisted : (host, connected) ∈ hub.hostStatuses) : hub.ensureHost host.id = true := by
  obtain ⟨listed, hhost, hstatus⟩ := List.mem_map.mp hlisted
  obtain ⟨rfl, -⟩ := Prod.mk.inj hstatus
  rw [Store.hosts, List.mem_mergeSort] at hhost
  obtain ⟨row, hrow, rfl⟩ := List.mem_map.mp hhost
  obtain ⟨hmem, hunrevoked⟩ := List.mem_filter.mp hrow
  exact hostActive_of_mem hmem (by simpa using hunrevoked)

/-- Actions one after another, and the first that cannot be taken ends them all. -/
def run (world : World) (hub : Hub) : List Action → Option Hub
  | [] => some hub
  | action :: actions => (hub.step world action).bind fun next => run world next actions

theorem Run.run (hrun : Run world hub) {actions : List Action}
    (hactions : hub.run world actions = some hub') : Run world hub' := by
  induction actions generalizing hub with
  | nil =>
      obtain rfl := Option.some.inj hactions
      exact hrun
  | cons action actions ih =>
      rw [Hub.run, Option.bind_eq_some_iff] at hactions
      obtain ⟨next, hstep, hrest⟩ := hactions
      exact ih (hrun.step hstep) hrest

/-- Every action is taken with care. -/
def Tended (world : World) (hub : Hub) : List Action → Prop
  | [] => True
  | action :: actions =>
      hub.Careful action ∧ ∀ next, hub.step world action = some next → next.Tended world actions

theorem CarefulRun.run (hrun : CarefulRun world hub) {actions : List Action}
    (htended : hub.Tended world actions) (hactions : hub.run world actions = some hub') :
    CarefulRun world hub' := by
  induction actions generalizing hub with
  | nil =>
      obtain rfl := Option.some.inj hactions
      exact hrun
  | cons action actions ih =>
      rw [Hub.run, Option.bind_eq_some_iff] at hactions
      obtain ⟨next, hstep, hrest⟩ := hactions
      exact ih (hrun.step htended.1 hstep) (htended.2 next hstep) hrest

theorem turns_of_revoke {requestId : RequestId} {actor : EventActor} {hostId : HostId}
    (hrevoke : hub.revoke world requestId actor hostId = some hub') : hub'.turns = hub.turns := by
  rw [Hub.revoke] at hrevoke
  split_ifs at hrevoke
  split at hrevoke <;> exact Option.some.inj hrevoke ▸ rfl

end Hub

/-! ## A link that was open -/

namespace OpenLink

def context (id : String) : CommandContext where
  commandId := id
  actor := .system
  correlationId := none

/-- A Hub that has enrolled a laptop. -/
def ops : List StoreOp :=
  [.initializeHub (context "1") "hub" "endpoint" "auth" "relay",
    .createInvitation (context "2") 100,
    .consumeInvitation (context "3") ⟨"8"⟩ "9" "laptop" "endpoint2" "auth2" "wss://relay"]

def laptop : HostId := ⟨"13"⟩

/-- The laptop polls events on the link that was open when it was removed. -/
def polled : List Action :=
  [.check 0 laptop, .publish 0, .revoke ⟨"4"⟩ .system laptop, .answer ⟨"4"⟩ laptop,
    .request 0 .pollEvents]

/-- The laptop tries a command after its removal has been answered. -/
def refused : List Action :=
  [.check 0 laptop, .publish 0, .request 0 .pollEvents, .revoke ⟨"4"⟩ .system laptop,
    .answer ⟨"4"⟩ laptop, .request 0 .command]

theorem tended_refused {store : Store} (henrolled : (Hub.start store).ensureHost laptop = true) :
    (Hub.start store).Tended World.numbered refused := by
  refine ⟨trivial, fun checked hcheck => ⟨trivial, fun opened hpublish => ⟨?_, fun served hpoll =>
    ⟨trivial, fun revoked hrevoke => ⟨?_, fun answered _ => ⟨?_, fun _ _ => trivial⟩⟩⟩⟩⟩⟩
  · intro _ hostId hlink
    rw [Hub.step, if_pos ⟨henrolled, rfl⟩] at hcheck
    obtain rfl := Option.some.inj hcheck
    obtain rfl := Option.some.inj hpublish
    obtain rfl : laptop = hostId := (HostLink.mk.inj (Option.some.inj hlink)).1
    exact henrolled
  · intro turnId turn hturn _
    rw [Hub.step, if_pos ⟨henrolled, rfl⟩] at hcheck
    obtain rfl := Option.some.inj hcheck
    obtain rfl := Option.some.inj hpublish
    obtain rfl := Option.some.inj hpoll
    rw [Hub.turns_of_revoke hrevoke] at hturn
    cases hturn
  · intro hearly
    cases hearly

end OpenLink

end RemovedHosts

end Mews
