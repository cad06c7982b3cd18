import Mews.Store.AggregateChanges
import Mews.Store.Retries

/-!
# Hub ownership

Moving the Hub and setting its relay URL read the installation before the
transaction that writes it.  A run interleaves these reads and writes with every
other command of the Store.
-/

namespace Mews

open Protocol Table Tx

/-- What a caller has read of the installation. -/
structure HubSeen where
  owner : HostId
  generation : Nat
  deriving DecidableEq

/-- A Store with the callers that share it: what they have read, and what the
moves that succeeded had read. -/
structure HubRun where
  store : Store
  seen : List HubSeen
  moved : List HubSeen

inductive HubStep where
  | command (op : StoreOp)
  | read
  | move (seen : HubSeen) (context : CommandContext) (target : HostId)
  | relay (seen : HubSeen) (context : CommandContext) (relayUrl : String)

namespace Store

/-- What follows the read of `set_relay_url`. -/
def relayHub (world : World) (context : CommandContext) (relayUrl : String) (owner : HostId) :
    Action Unit :=
  appendInstallationEvent world context "set_relay_url" (.relayUrl relayUrl)
    (.relayChanged (some relayUrl) (some owner))

theorem setRelayUrl_eq (world : World) (context : CommandContext) (relayUrl : String) :
    setRelayUrl world context relayUrl = (do
      let installation ← requiredInstallation
      relayHub world context relayUrl installation.hubHostId) := rfl

end Store

namespace HubRun

open Store

variable (world : World)

def initial : HubRun := { store := Store.empty, seen := [], moved := [] }

/-- A move that succeeds is recorded; its retries are not moves of their own. -/
def move (run : HubRun) (seen : HubSeen) (context : CommandContext) (target : HostId) : HubRun :=
  let outcome := moveHub world context seen.owner target run.store
  let first := run.store.selectCommandReceipt (context.operationId "move_hub") = none
  { run with
    store := outcome.2
    moved := if outcome.1.isOk = true ∧ first then seen :: run.moved else run.moved }

def generation (run : HubRun) : Nat :=
  (run.store.projection.installation.map (·.generation)).getD 0

/-- A caller acts on what it has read.  A plain move names its owner at once. -/
def step (run : HubRun) : HubStep → HubRun
  | .command (.moveHub context expected target) =>
      run.move world ⟨expected, run.generation⟩ context target
  | .command op => { run with store := Store.step world run.store op }
  | .read =>
      match run.store.projection.installation with
      | some installation =>
          { run with seen := ⟨installation.hubHostId, installation.generation⟩ :: run.seen }
      | none => run
  | .move seen context target =>
      if seen ∈ run.seen then run.move world seen context target else run
  | .relay seen context relayUrl =>
      if seen ∈ run.seen then
        { run with store := (relayHub world context relayUrl seen.owner run.store).2 }
      else run

def after (steps : List HubStep) : HubRun := steps.foldl (step world) initial

end HubRun

namespace Projection

open Store

variable {world : World} {tables tables' : Projection} {event : JournalEntry}

/-- The Hub Host is enrolled and not revoked; without an installation nothing
has been revoked. -/
structure Hubbed (tables : Projection) : Prop where
  hosts : Unique (fun row => row.host.id) tables.hosts
  hub : ∀ installation, tables.installation = some installation →
    hostActive installation.hubHostId tables = true
  unrevoked : tables.installation = none → ∀ row ∈ tables.hosts, row.revoked = false

theorem hubbed_empty : Projection.empty.Hubbed := by
  constructor <;> simp [Projection.empty]

theorem exists_of_hostActive {hostId : HostId} (hactive : hostActive hostId tables = true) :
    ∃ row ∈ tables.hosts, row.host.id = hostId ∧ row.revoked = false := by
  simpa [hostActive] using hactive

theorem hostActive_of_mem {row : HostRow} (hrow : row ∈ tables.hosts)
    (hrevoked : row.revoked = false) : hostActive row.host.id tables = true := by
  rw [hostActive, List.any_eq_true]
  exact ⟨row, hrow, by simp [hrevoked]⟩

theorem Hubbed.congr (hhubbed : tables.Hubbed) (hhosts : tables'.hosts = tables.hosts)
    (hinstallation : tables'.installation = tables.installation) : tables'.Hubbed := by
  refine ⟨by rw [hhosts]; exact hhubbed.hosts, ?_, ?_⟩
  · rw [hinstallation]
    intro installation hsome
    rw [hostActive, hhosts]
    exact hhubbed.hub installation hsome
  · rw [hinstallation, hhosts]
    exact hhubbed.unrevoked

theorem Hubbed.host (hhubbed : tables.Hubbed) (hchange : HostChange tables event tables') :
    tables'.Hubbed := by
  cases hchange with
  | enrolled host _ hnew =>
      refine ⟨unique_append_singleton.mpr ⟨hhubbed.hosts, hnew⟩, ?_, ?_⟩
      · intro installation hsome
        obtain ⟨row, hrow, hid, hrevoked⟩ := exists_of_hostActive (hhubbed.hub installation hsome)
        rw [← hid]
        exact hostActive_of_mem (List.mem_append_left _ hrow) hrevoked
      · intro hnone row hrow
        rcases List.mem_append.mp hrow with hrow | hrow
        · exact hhubbed.unrevoked hnone row hrow
        · obtain rfl := List.mem_singleton.mp hrow
          rfl
  | revoked hostId =>
      refine ⟨(unique_updateWhere fun _ => by rfl).mpr hhubbed.hosts, ?_, ?_⟩
      · intro installation hsome
        obtain ⟨row, hrow, hid, hrevoked⟩ := exists_of_hostActive (hhubbed.hub installation hsome)
        rw [← hid]
        refine hostActive_of_mem (mem_updateWhere.mpr ⟨row, hrow, ?_⟩) hrevoked
        have hinstallation : tables.installation = some installation := hsome
        rw [if_neg]
        simp [hinstallation, hid]
      · intro hnone row hrow
        have hinstallation : tables.installation = none := hnone
        obtain ⟨old, hold, rfl⟩ := mem_updateWhere.mp hrow
        simp [hinstallation, hhubbed.unrevoked hinstallation old hold]
  | invited => exact hhubbed.congr rfl rfl

/-- Only the Hub a `hubChanged` entry names has to be checked. -/
theorem Hubbed.installation {batch : List JournalEvent} (hhubbed : tables.Hubbed)
    (hlawful : LawfulAggregate tables batch event.payload)
    (hchange : InstallationChange tables event tables') : tables'.Hubbed := by
  cases hchange with
  | created installation _ hnone hhub =>
      refine ⟨hhubbed.hosts, ?_, fun h => by cases h⟩
      rintro _ ⟨⟩
      rw [hostExists, List.any_eq_true] at hhub
      obtain ⟨row, hrow, hid⟩ := hhub
      rw [← of_decide_eq_true hid]
      exact hostActive_of_mem hrow (hhubbed.unrevoked hnone row hrow)
  | relayed relayUrl hostId =>
      refine ⟨(unique_updateWhere fun _ => by rfl).mpr hhubbed.hosts, ?_, ?_⟩
      · intro installation hsome
        obtain ⟨old, hold, rfl⟩ := Option.map_eq_some_iff.mp hsome
        obtain ⟨row, hrow, hid, hrevoked⟩ := exists_of_hostActive (hhubbed.hub old hold)
        change hostActive old.hubHostId _ = true
        rw [hostActive, List.any_eq_true]
        refine ⟨_, mem_updateWhere.mpr ⟨row, hrow, rfl⟩, ?_⟩
        split <;> simp [hid, hrevoked]
      · intro hnone row hrow
        obtain ⟨old, hold, rfl⟩ := mem_updateWhere.mp hrow
        have hrevoked := hhubbed.unrevoked (Option.map_eq_none_iff.mp hnone) old hold
        split <;> exact hrevoked
  | settled => exact hhubbed.congr rfl rfl
  | moved hostId generation hpayload =>
      rw [hpayload] at hlawful
      obtain ⟨-, hactive, -⟩ := hlawful
      refine ⟨hhubbed.hosts, ?_, ?_⟩
      · intro installation hsome
        obtain ⟨old, -, rfl⟩ := Option.map_eq_some_iff.mp hsome
        exact hactive
      · exact fun hnone => hhubbed.unrevoked (Option.map_eq_none_iff.mp hnone)

theorem Hubbed.aggregate {batch : List JournalEvent} (hhubbed : tables.Hubbed)
    (hlawful : LawfulAggregate tables batch event.payload)
    (hproject : tables.projectAggregate event = .ok tables') : tables'.Hubbed := by
  rcases projectAggregate_hosts hproject with hhost | hinstallation | ⟨hhosts, hinstallation⟩
  · exact hhubbed.host hhost
  · exact hhubbed.installation hlawful hinstallation
  · exact hhubbed.congr hhosts hinstallation

/-- The Hub and its generation stay; an installation starts at generation one. -/
structure SameHub (tables tables' : Projection) : Prop where
  kept : ∀ installation, tables.installation = some installation →
    ∃ installation', tables'.installation = some installation' ∧
      installation'.hubHostId = installation.hubHostId ∧
      installation'.generation = installation.generation
  first : tables.installation = none →
    ∀ installation', tables'.installation = some installation' → installation'.generation = 1

theorem SameHub.of_eq (hinstallation : tables'.installation = tables.installation) :
    SameHub tables tables' := by
  refine ⟨fun installation hsome => ⟨installation, by rwa [hinstallation], rfl, rfl⟩, ?_⟩
  intro hnone installation' hsome
  rw [hinstallation, hnone] at hsome
  cases hsome

theorem SameHub.trans {first second third : Projection} (hfirst : SameHub first second)
    (hsecond : SameHub second third) : SameHub first third where
  kept := by
    intro installation hsome
    obtain ⟨middle, hmiddle, hhub, hgeneration⟩ := hfirst.kept installation hsome
    obtain ⟨last, hlast, hhub', hgeneration'⟩ := hsecond.kept middle hmiddle
    exact ⟨last, hlast, hhub'.trans hhub, hgeneration'.trans hgeneration⟩
  first := by
    intro hnone last hlast
    cases hmiddle : second.installation with
    | none => exact hsecond.first hmiddle last hlast
    | some middle =>
        obtain ⟨last', hlast', -, hgeneration⟩ := hsecond.kept middle hmiddle
        rw [hlast, Option.some.injEq] at hlast'
        rw [hlast', hgeneration]
        exact hfirst.first hnone middle hmiddle

theorem sameHub_of_aggregate {batch : List JournalEvent}
    (hlawful : LawfulAggregate tables batch event.payload)
    (hproject : tables.projectAggregate event = .ok tables')
    (hnone : ∀ hostId generation, event.payload ≠ .hubChanged hostId generation) :
    SameHub tables tables' := by
  rcases projectAggregate_hosts hproject with hhost | hinstallation | ⟨-, hinstallation⟩
  · cases hhost <;> exact .of_eq rfl
  · cases hinstallation with
    | created installation hpayload hmissing =>
        rw [hpayload] at hlawful
        constructor
        · intro old hold
          rw [hmissing] at hold
          cases hold
        · rintro - _ ⟨⟩
          exact hlawful
    | relayed relayUrl hostId =>
        constructor
        · intro installation hsome
          exact ⟨{ installation with relayUrl }, by simp [changeRelay, hsome], rfl, rfl⟩
        · intro hmissing installation' hsome
          simp [changeRelay, hmissing] at hsome
    | settled => exact .of_eq rfl
    | moved hostId generation hpayload => exact absurd hpayload (hnone hostId generation)
  · exact .of_eq hinstallation

/-- Every Host is still there, with the same relay URL unless it may change. -/
def RelaysKept (changes : HostId → Prop) (tables tables' : Projection) : Prop :=
  ∀ row ∈ tables.hosts, ∃ row' ∈ tables'.hosts,
    row'.host = { row.host with relayUrl := row'.host.relayUrl } ∧
    (row'.host.relayUrl = row.host.relayUrl ∨ changes row.host.id)

variable {changes : HostId → Prop}

theorem RelaysKept.of_eq (hhosts : tables'.hosts = tables.hosts) :
    RelaysKept changes tables tables' :=
  fun row hrow => ⟨row, by rwa [hhosts], rfl, .inl rfl⟩

theorem RelaysKept.trans {first second third : Projection} (hfirst : RelaysKept changes first second)
    (hsecond : RelaysKept changes second third) : RelaysKept changes first third := by
  intro row hrow
  obtain ⟨middle, hmiddle, hhost, hrelay⟩ := hfirst row hrow
  obtain ⟨last, hlast, hhost', hrelay'⟩ := hsecond middle hmiddle
  have hid : middle.host.id = row.host.id := by rw [hhost]
  refine ⟨last, hlast, by rw [hhost', hhost], ?_⟩
  rcases hrelay' with hsame' | hchanges'
  · rcases hrelay with hsame | hchanges
    · exact .inl (hsame'.trans hsame)
    · exact .inr hchanges
  · exact .inr (hid ▸ hchanges')

theorem RelaysKept.mono {changes' : HostId → Prop} (hkept : RelaysKept changes tables tables')
    (himp : ∀ hostId, changes hostId → changes' hostId) : RelaysKept changes' tables tables' := by
  intro row hrow
  obtain ⟨row', hrow', hhost, hrelay⟩ := hkept row hrow
  exact ⟨row', hrow', hhost, hrelay.imp_right (himp _)⟩

theorem relaysKept_changeRelay {relayUrl : Option String} {owner : HostId} :
    RelaysKept (fun hostId => hostId = owner) tables (tables.changeRelay relayUrl (some owner)) := by
  intro row hrow
  refine ⟨_, mem_updateWhere.mpr ⟨row, hrow, rfl⟩, ?_⟩
  by_cases howner : row.host.id = owner
  · rw [if_pos (by simp [howner])]
    exact ⟨rfl, .inr howner⟩
  · rw [if_neg (by simp [howner])]
    exact ⟨rfl, .inl rfl⟩

theorem relaysKept_of_aggregate (hproject : tables.projectAggregate event = .ok tables')
    (hchanges : ∀ relayUrl hostId, event.payload = .relayChanged relayUrl (some hostId) →
      changes hostId) :
    RelaysKept changes tables tables' := by
  rcases projectAggregate_hosts hproject with hhost | hinstallation | ⟨hhosts, -⟩
  · cases hhost with
    | enrolled host =>
        exact fun row hrow => ⟨row, List.mem_append_left _ hrow, rfl, .inl rfl⟩
    | revoked hostId =>
        intro row hrow
        refine ⟨_, mem_updateWhere.mpr ⟨row, hrow, rfl⟩, ?_⟩
        split <;> exact ⟨rfl, .inl rfl⟩
    | invited => exact .of_eq rfl
  · cases hinstallation with
    | relayed relayUrl hostId hpayload =>
        cases hostId with
        | some hostId =>
            refine relaysKept_changeRelay.mono ?_
            rintro _ rfl
            exact hchanges relayUrl _ hpayload
        | none =>
            refine .of_eq ?_
            rw [changeRelay, updateWhere_eq_self fun row _ => by simp]
    | _ => exact .of_eq rfl
  · exact .of_eq hhosts

end Projection

namespace Store

open Projection

variable {world : World} {footprint : Footprint} {store store' : Store}

theorem Moves.hubbed (hmoves : Moves world footprint store store')
    (hhubbed : store.projection.Hubbed) : store'.projection.Hubbed := by
  refine hmoves.tables_invariant Hubbed ?_ ?_ hhubbed
  · rintro tables tables' ⟨sessionId, event, delivery, -, -, hchange⟩ hhubbed
    have hsame := hchange.sameAggregates
    exact hhubbed.congr hsame.hosts_eq hsame.installation_eq
  · exact fun tables tables' event batch hlawful hproject hhubbed =>
      hhubbed.aggregate hlawful hproject

theorem Moves.sameHub (hmoves : Moves world footprint store store')
    (hnone : ∀ hostId generation, ¬footprint.produces (.hubChanged hostId generation)) :
    SameHub store.projection store'.projection := by
  refine hmoves.tables_related SameHub (fun _ => .of_eq rfl) (fun _ _ _ => SameHub.trans) ?_ ?_
  · rintro tables tables' ⟨sessionId, event, delivery, -, -, hchange⟩
    exact .of_eq hchange.sameAggregates.installation_eq
  · intro tables tables' event batch hlawful hproduces hproject
    refine sameHub_of_aggregate hlawful hproject fun hostId generation hpayload => ?_
    exact hnone hostId generation (hpayload ▸ hproduces)

theorem Moves.relaysKept {changes : HostId → Prop} (hmoves : Moves world footprint store store')
    (hchanges : ∀ relayUrl hostId, footprint.produces (.relayChanged relayUrl (some hostId)) →
      changes hostId) :
    RelaysKept changes store.projection store'.projection := by
  refine hmoves.tables_related (RelaysKept changes) (fun _ => .of_eq rfl)
    (fun _ _ _ => RelaysKept.trans) ?_ ?_
  · rintro tables tables' ⟨sessionId, event, delivery, -, -, hchange⟩
    exact .of_eq hchange.sameAggregates.hosts_eq
  · intro tables tables' event batch _ hproduces hproject
    refine relaysKept_of_aggregate hproject fun relayUrl hostId hpayload => ?_
    exact hchanges relayUrl hostId (hpayload ▸ hproduces)

theorem moveHub_of_produces {op : StoreOp} {target : HostId} {generation : Nat}
    (hproduces : op.produces (.hubChanged target generation)) :
    ∃ context expected, op = .moveHub context expected target := by
  cases op with
  | moveHub context expected target' =>
      obtain ⟨_, heq⟩ := hproduces
      cases heq
      exact ⟨context, expected, rfl⟩
  | finishEffect | finishTurnWithStopReason | recoverInterruptedWork =>
      cases StoreOp.endsWork_of_produces rfl hproduces
  | _ => simp [StoreOp.produces, observationPayload] at hproduces

theorem setRelayUrl_of_produces {op : StoreOp} {relayUrl : Option String} {hostId : HostId}
    (hproduces : op.produces (.relayChanged relayUrl (some hostId))) :
    ∃ context url, op = .setRelayUrl context url := by
  cases op with
  | setRelayUrl context url => exact ⟨context, url, rfl⟩
  | finishEffect | finishTurnWithStopReason | recoverInterruptedWork =>
      cases StoreOp.endsWork_of_produces rfl hproduces
  | _ => simp [StoreOp.produces, observationPayload] at hproduces

/-! ## Moves -/

section MoveHub

variable {context : CommandContext} {expected target : HostId}

theorem runs_decideMoveHub {decision : Installation × List JournalSubjectAppend} :
    Runs (decideMoveHub world expected target) store decision store' ↔
      hostActive target store.projection = true ∧
      ∃ installation, store.projection.installation = some installation ∧
        installation.hubHostId = expected ∧
        decision = ({ installation with
            hubHostId := target, generation := installation.generation + 1 },
          [{ subject := .installation installation.id, entries :=
            [⟨⟨world.uuid store.drawn⟩, .system, none,
              .hubChanged target (installation.generation + 1)⟩] }]) ∧
        store' = { store with drawn := store.drawn + 1 } := by
  simp only [decideMoveHub, requiredInstallation, runs_bind, select, runs_reads_iff,
    runs_require_iff, runs_expect_iff, runs_singleSubject_iff, runs_pure_iff]
  constructor
  · rintro ⟨_, _, ⟨rfl, rfl⟩, _, _, ⟨hactive, rfl⟩, installation, _, ⟨_, _, ⟨rfl, rfl⟩, hsome, rfl⟩,
      _, _, ⟨hexpected, rfl⟩, _, _, ⟨rfl, rfl⟩, rfl, rfl⟩
    exact ⟨hactive, installation, hsome, hexpected, rfl, rfl⟩
  · rintro ⟨hactive, installation, hsome, hexpected, rfl, rfl⟩
    exact ⟨_, _, ⟨rfl, rfl⟩, (), _, ⟨hactive, rfl⟩, installation, _, ⟨_, _, ⟨rfl, rfl⟩, hsome, rfl⟩,
      (), _, ⟨hexpected, rfl⟩, _, _, ⟨rfl, rfl⟩, rfl, rfl⟩

theorem moveHub_eq_call :
    moveHub world context expected target =
      Transacting.call world
        { Output := Installation
          codec := inferInstance
          context
          operation := "move_hub"
          requestHash := world.requestHash (.moveHub expected target)
          check := .ok ()
          decide := decideMoveHub world expected target
          mutate := applyInstallationEvents } := rfl

/-- The installation after a move. -/
def movedHub (installation : Installation) (target : HostId) : Installation :=
  { installation with hubHostId := target, generation := installation.generation + 1 }

/-- A move that succeeds for the first time changes the Hub of the installation
and nothing else; any other call leaves the tables alone. -/
theorem moveHub_outcome (world : World) (store : Store) (context : CommandContext)
    (expected target : HostId) :
    let outcome := moveHub world context expected target store
    let first := store.selectCommandReceipt (context.operationId "move_hub") = none
    (outcome.2.projection = store.projection ∧ ¬(outcome.1.isOk = true ∧ first)) ∨
    (outcome.1.isOk = true ∧ first) ∧ ∃ installation,
      store.projection.installation = some installation ∧ installation.hubHostId = expected ∧
      outcome.2.projection =
        { store.projection with installation := some (movedHub installation target) } := by
  intro outcome first
  cases hrun : moveHub world context expected target store with
  | mk returned store' =>
      have houtcome : outcome = (returned, store') := hrun
      rw [houtcome]
      cases returned with
      | error error =>
          have hrolled : store' = rollback store store' :=
            rollback_of_fails (by rw [moveHub_eq_call]; exact rollsBack_call _) hrun
          refine .inl ⟨?_, fun h => by simp [Except.isOk, Except.toBool] at h⟩
          rw [hrolled]
          rfl
      | ok result =>
          rw [moveHub_eq_call] at hrun
          cases hreceipt : store.selectCommandReceipt (context.operationId "move_hub") with
          | some receipt =>
              refine .inl ⟨?_, fun h => by simp [first, hreceipt] at h⟩
              rw [Transacting.runs_call_again hrun hreceipt]
          | none =>
              refine .inr ⟨⟨rfl, hreceipt⟩, ?_⟩
              obtain ⟨-, subjects, decided, appended, hdecide, happend⟩ :=
                (Transacting.runs_call_first hreceipt).mp hrun
              obtain ⟨-, installation, hsome, hexpected, hdecision, rfl⟩ :=
                runs_decideMoveHub.mp hdecide
              obtain ⟨rfl, rfl⟩ := Prod.mk.inj hdecision
              obtain ⟨-, -, committed, tables, rfl, hproject, -, rfl⟩ :=
                (runs_append_one rfl rfl hreceipt).mp happend
              refine ⟨installation, hsome, hexpected, ?_⟩
              change changeHub store.projection target _ = _ at hproject
              simp only [changeHub, bind_eq_ok, exists_unit, demand_eq_ok, pure_eq_ok] at hproject
              obtain ⟨-, rfl⟩ := hproject
              simp [hsome, movedHub]

end MoveHub

/-! ## Relay updates -/

theorem relayHub_reaches {context : CommandContext} {relayUrl : String} {owner : HostId} :
    Preserves (Reaches world Footprint.unrestricted) (relayHub world context relayUrl owner) :=
  appendInstallationEvent_reaches rfl (fun _ => trivial) trivial

/-- A change of a relay that succeeds for the first time is projected; any other
call leaves the tables alone. -/
theorem relayChange_outcome (world : World) (store : Store) (context : CommandContext)
    (command : String) (request : CommandRequest) (relayUrl : String) (owner : Option HostId) :
    let outcome := appendInstallationEvent world context command request
      (.relayChanged (some relayUrl) owner) store
    let first := store.selectCommandReceipt (context.operationId command) = none
    (outcome.2.projection = store.projection ∧ ¬(outcome.1.isOk = true ∧ first)) ∨
    (outcome.1.isOk = true ∧ first) ∧
      (∃ installation, store.projection.installation = some installation) ∧
      outcome.2.projection = store.projection.changeRelay (some relayUrl) owner := by
  intro outcome first
  cases hrun : appendInstallationEvent world context command request
      (.relayChanged (some relayUrl) owner) store with
  | mk returned store' =>
      have houtcome : outcome = (returned, store') := hrun
      rw [houtcome]
      cases returned with
      | error error =>
          refine .inl ⟨?_, fun h => by simp [Except.isOk, Except.toBool] at h⟩
          rw [rollback_of_fails rollsBack_appendInstallationEvent hrun]
          rfl
      | ok result =>
          change Runs _ _ _ _ at hrun
          simp only [appendInstallationEvent, requiredInstallation, runs_bind, select,
            runs_reads_iff, runs_expect_iff, runs_singleSubject_iff, appendJournalEntriesWith,
            transaction, runs_atomically_iff, runs_pure_iff] at hrun
          obtain ⟨installation, _, ⟨_, _, ⟨rfl, rfl⟩, hsome, rfl⟩, _, _, ⟨rfl, rfl⟩, _, _, happend,
            -, rfl⟩ := hrun
          cases hreceipt : store.selectCommandReceipt (context.operationId command) with
          | some receipt =>
              have hfound : ({ store with drawn := store.drawn + 1 } : Store).selectCommandReceipt
                  (context.operationId command) = some receipt := hreceipt
              refine .inl ⟨?_, fun h => by simp [first, hreceipt] at h⟩
              rw [runs_append_again happend hfound]
          | none =>
              obtain ⟨-, -, committed, tables, rfl, hproject, -, rfl⟩ :=
                (runs_append_one rfl rfl hreceipt).mp happend
              exact .inr ⟨⟨rfl, hreceipt⟩, ⟨installation, hsome⟩, (Except.ok.inj hproject).symm⟩

theorem receipt_of_relayChange {context : CommandContext} {command relayUrl : String}
    {request : CommandRequest} {owner : Option HostId}
    (hok : (appendInstallationEvent world context command request
      (.relayChanged (some relayUrl) owner) store).1.isOk = true) :
    ((appendInstallationEvent world context command request (.relayChanged (some relayUrl) owner)
      store).2.selectCommandReceipt (context.operationId command)).isSome = true := by
  have hreceipted : ensures (appendInstallationEvent world context command request
      (.relayChanged (some relayUrl) owner)) store fun _ store' =>
        ∃ receipt, store'.selectCommandReceipt (context.operationId command) = some receipt := by
    simp only [appendInstallationEvent, requiredInstallation, appendJournalEntriesWith,
      ensures_bind, ensures_select, ensures_expect, ensures_singleSubject, ensures_transaction,
      ensures_pure]
    intro installation _
    refine ensures_mono (@ensures_appendDecorated world Footprint.unrestricted _ _ _ _ _ _ rfl
      (by simp [JournalSubject.kind]) (by simp [LawfulAggregate]) (by simp [Footprint.unrestricted])
      (projectsAggregates_of fun event hevent => ?_)) ?_
    · simp only [List.flatMap_cons, List.map_cons, List.map_nil, List.flatMap_nil,
        List.append_nil, List.mem_singleton] at hevent
      exact projectAggregate_of_installation (by rw [hevent]; rfl)
    · rintro _ store' ⟨-, hreceipted⟩
      obtain ⟨receipt, hfound, -⟩ := hreceipted.found
      exact ⟨receipt, hfound⟩
  cases hrun : appendInstallationEvent world context command request
      (.relayChanged (some relayUrl) owner) store with
  | mk returned store' =>
      rw [hrun] at hok
      cases returned with
      | error error => simp [Except.isOk, Except.toBool] at hok
      | ok result =>
          obtain ⟨receipt, hfound⟩ := hreceipted result store' hrun
          rw [hfound]
          rfl

theorem relayHub_outcome (world : World) (store : Store) (context : CommandContext)
    (relayUrl : String) (owner : HostId) :
    let store' := (relayHub world context relayUrl owner store).2
    store'.projection = store.projection ∨
      (∃ installation, store.projection.installation = some installation) ∧
        store'.projection = store.projection.changeRelay (some relayUrl) (some owner) :=
  (relayChange_outcome world store context "set_relay_url" (.relayUrl relayUrl) relayUrl
    (some owner)).imp And.left And.right

/-! ## Receipts of both -/

theorem receipt_of_moveHub {context : CommandContext} {expected target : HostId}
    (hok : (moveHub world context expected target store).1.isOk = true) :
    ((moveHub world context expected target store).2.selectCommandReceipt
      (context.operationId "move_hub")).isSome = true := by
  cases hrun : moveHub world context expected target store with
  | mk returned store' =>
      rw [hrun] at hok
      cases returned with
      | error error => simp [Except.isOk, Except.toBool] at hok
      | ok result =>
          rw [moveHub, ← Runs, runs_bind] at hrun
          obtain ⟨outcome, reached, htransact, hpure⟩ := hrun
          obtain ⟨-, rfl⟩ := runs_pure_iff.mp hpure
          have htransacted : Transacted world Footprint.unrestricted
              (context.operationId "move_hub") _ store outcome reached :=
            ensures_transactCommand (fun store => ensures_decideMoveHub fun _ => trivial) outcome
              reached htransact
          obtain ⟨receipt, hfound, -⟩ := htransacted.receipt
          rw [hfound]
          rfl

end Store

namespace HubStep

/-- What a move has read, and the Host it moves to. -/
def start (run : HubRun) : HubStep → Option (HubSeen × HostId)
  | .command (.moveHub _ expected target) => some (⟨expected, run.generation⟩, target)
  | .move seen _ target => some (seen, target)
  | _ => none

/-- The URL that a relay update of the Hub sets. -/
def relayUrl : HubStep → Option String
  | .command (.setRelayUrl _ relayUrl) => some relayUrl
  | .relay _ _ relayUrl => some relayUrl
  | _ => none

/-- What the caller has read still holds: a move names another Host and finds
the generation it read when it finds the owner it read, and a relay update finds
the Hub it read. -/
structure Fenced (run : HubRun) (step : HubStep) : Prop where
  move : ∀ seen target, step.start run = some (seen, target) → target ≠ seen.owner ∧
    ∀ installation, run.store.projection.installation = some installation →
      installation.hubHostId = seen.owner → installation.generation = seen.generation
  relay : ∀ seen context relayUrl, step = .relay seen context relayUrl →
    ∀ installation, run.store.projection.installation = some installation →
      installation.hubHostId = seen.owner

end HubStep

namespace HubRun

open Store Projection

variable {world : World} {run : HubRun} {step : HubStep}

/-- What a step does: it moves the Hub, sets its relay URL, or does neither. -/
inductive Stepped (run : HubRun) (step : HubStep) (next : HubRun) : Prop
  | moved (seen : HubSeen) (target : HostId) (installation : Installation)
      (hstart : step.start run = some (seen, target))
      (hsome : run.store.projection.installation = some installation)
      (howner : installation.hubHostId = seen.owner)
      (htables : next.store.projection = { run.store.projection with
        installation := some (movedHub installation target) })
      (hmoved : next.moved = seen :: run.moved)
  | relayed (relayUrl : String) (owner : HostId) (installation : Installation)
      (hrelay : step.relayUrl = some relayUrl)
      (hsome : run.store.projection.installation = some installation)
      (howner : step.Fenced run → installation.hubHostId = owner)
      (htables : next.store.projection =
        run.store.projection.changeRelay (some relayUrl) (some owner))
      (hmoved : next.moved = run.moved)
  | other (hsame : SameHub run.store.projection next.store.projection)
      (hrelays : ∀ changes, RelaysKept changes run.store.projection next.store.projection)
      (hidle : step.relayUrl ≠ none → next.store.projection = run.store.projection)
      (hmoved : next.moved = run.moved)

theorem Stepped.of_eq {next : HubRun} (htables : next.store.projection = run.store.projection)
    (hmoved : next.moved = run.moved) : Stepped run step next := by
  apply Stepped.other
  · exact .of_eq (by rw [htables])
  · exact fun changes => .of_eq (by rw [htables])
  · exact fun _ => htables
  · exact hmoved

theorem move_stepped {seen : HubSeen} {context : CommandContext} {target : HostId}
    (hstart : step.start run = some (seen, target)) :
    Stepped run step (run.move world seen context target) := by
  have houtcome := moveHub_outcome world run.store context seen.owner target
  rcases houtcome with ⟨htables, hnot⟩ | ⟨hfirst, installation, hsome, howner, htables⟩
  · apply Stepped.of_eq htables
    rw [move, if_neg hnot]
  · apply Stepped.moved seen target installation hstart hsome howner htables
    rw [move, if_pos hfirst]

theorem relay_stepped {relayUrl : String} {owner : HostId} {context : CommandContext}
    (hrelay : step.relayUrl = some relayUrl)
    (howner : step.Fenced run → ∀ installation,
      run.store.projection.installation = some installation → installation.hubHostId = owner) :
    Stepped run step
      { run with store := (relayHub world context relayUrl owner run.store).2 } := by
  rcases relayHub_outcome world run.store context relayUrl owner with htables | htables
  · exact .of_eq htables rfl
  · obtain ⟨⟨installation, hsome⟩, htables⟩ := htables
    exact .relayed relayUrl owner installation hrelay hsome
      (fun hfenced => howner hfenced installation hsome) htables rfl

theorem command_stepped (hkeyed : run.store.projection.Keyed) {op : StoreOp}
    (hmove : ∀ context expected target, op ≠ .moveHub context expected target)
    (hrelay : ∀ context relayUrl, op ≠ .setRelayUrl context relayUrl) :
    Stepped run (.command op) { run with store := Store.step world run.store op } := by
  have hmoves := step_moves world hkeyed op
  apply Stepped.other
  · apply hmoves.sameHub
    intro hostId generation hproduces
    obtain ⟨context, expected, rfl⟩ := moveHub_of_produces hproduces
    exact hmove context expected hostId rfl
  · intro changes
    apply hmoves.relaysKept
    intro relayUrl hostId hproduces
    obtain ⟨context, url, rfl⟩ := setRelayUrl_of_produces hproduces
    exact absurd rfl (hrelay context url)
  · intro hurl
    cases op with
    | setRelayUrl context url => exact absurd rfl (hrelay context url)
    | _ => exact absurd rfl hurl
  · rfl

theorem step_setRelayUrl (world : World) (store : Store) (context : CommandContext)
    (relayUrl : String) :
    Store.step world store (.setRelayUrl context relayUrl) =
      match store.projection.installation with
      | some installation =>
          (relayHub world context relayUrl installation.hubHostId store).2
      | none => store := by
  have hread : requiredInstallation store = expect store.projection.installation
      (.invalidData "installation is missing") store := rfl
  change (andThen requiredInstallation _ store).2 = _
  rw [andThen, hread]
  cases store.projection.installation <;> rfl

theorem setRelayUrl_stepped {context : CommandContext} {relayUrl : String} :
    Stepped run (.command (.setRelayUrl context relayUrl))
      { run with store := Store.step world run.store (.setRelayUrl context relayUrl) } := by
  rw [step_setRelayUrl]
  cases hsome : run.store.projection.installation with
  | none => exact .of_eq rfl rfl
  | some installation =>
      refine relay_stepped rfl fun _ other hother => ?_
      rw [hsome, Option.some.injEq] at hother
      rw [hother]

theorem step_stepped (world : World) (hkeyed : run.store.projection.Keyed) (step : HubStep) :
    Stepped run step (run.step world step) := by
  cases step with
  | command op =>
      cases op with
      | moveHub context expected target => exact move_stepped rfl
      | setRelayUrl context relayUrl => exact setRelayUrl_stepped
      | _ => exact command_stepped hkeyed (by simp) (by simp)
  | read =>
      rw [HubRun.step]
      split <;> exact .of_eq rfl rfl
  | move seen context target =>
      rw [HubRun.step]
      split
      · exact move_stepped rfl
      · exact .of_eq rfl rfl
  | relay seen context relayUrl =>
      rw [HubRun.step]
      split
      · exact relay_stepped rfl fun hfenced => hfenced.relay seen context relayUrl rfl
      · exact .of_eq rfl rfl

theorem step_command (world : World) (run : HubRun) (op : StoreOp) :
    (run.step world (.command op)).store = Store.step world run.store op := by
  cases op with
  | moveHub context expected target => exact (discard_snd _ _).symm
  | _ => rfl

theorem step_moves (world : World) (hkeyed : run.store.projection.Keyed) (step : HubStep) :
    Moves world Footprint.unrestricted run.store (run.step world step).store := by
  cases step with
  | command op =>
      rw [step_command]
      exact (Store.step_moves world hkeyed op).unrestricted
  | read =>
      rw [HubRun.step]
      split <;> exact .refl
  | move seen context target =>
      rw [HubRun.step]
      split
      · exact moveHub_reaches (fun _ => trivial) run.store hkeyed
      · exact .refl
  | relay seen context relayUrl =>
      rw [HubRun.step]
      split
      · exact relayHub_reaches run.store hkeyed
      · exact .refl

/-! ## What holds along a run -/

/-- The keys and the Hub Host are in order. -/
structure Sound (run : HubRun) : Prop where
  keyed : run.store.projection.Keyed
  hubbed : run.store.projection.Hubbed

theorem sound_initial : initial.Sound := ⟨Projection.keyed_empty, hubbed_empty⟩

theorem Sound.kept (hsound : run.Sound) (step : HubStep) : (run.step world step).Sound := by
  have hmoves := step_moves world hsound.keyed step
  exact ⟨hmoves.keyed hsound.keyed, hmoves.hubbed hsound.hubbed⟩

/-- Once there is an installation it stays.  Its generation grows by one when a
move from its Hub succeeds, and stays with the Hub otherwise. -/
def Generations (run : HubRun) (step : HubStep) (next : HubRun) : Prop :=
  (run.store.projection.installation = none → ∀ installation,
    next.store.projection.installation = some installation → installation.generation = 1) ∧
  ∀ installation, run.store.projection.installation = some installation →
    ∃ installation', next.store.projection.installation = some installation' ∧
      (installation'.hubHostId = installation.hubHostId ∧
          installation'.generation = installation.generation ∨
        installation'.generation = installation.generation + 1 ∧
          ∃ seen, step.start run = some (seen, installation'.hubHostId) ∧
            seen.owner = installation.hubHostId)

theorem Generations.of_sameHub {next : HubRun}
    (hsame : SameHub run.store.projection next.store.projection) : Generations run step next := by
  refine ⟨hsame.first, fun installation hsome => ?_⟩
  obtain ⟨installation', hsome', hhub, hgeneration⟩ := hsame.kept installation hsome
  exact ⟨installation', hsome', .inl ⟨hhub, hgeneration⟩⟩

theorem sameHub_changeRelay {tables : Projection} {relayUrl : Option String}
    {hostId : Option HostId} : SameHub tables (tables.changeRelay relayUrl hostId) := by
  constructor
  · intro installation hsome
    exact ⟨{ installation with relayUrl }, by simp [changeRelay, hsome], rfl, rfl⟩
  · intro hnone installation hsome
    simp [changeRelay, hnone] at hsome

theorem Stepped.generations {next : HubRun} (hstepped : Stepped run step next) :
    Generations run step next := by
  cases hstepped with
  | moved seen target installation hstart hsome howner htables =>
      constructor
      · intro hnone
        rw [hnone] at hsome
        cases hsome
      · intro installation' hsome'
        rw [hsome, Option.some.injEq] at hsome'
        subst hsome'
        exact ⟨movedHub installation target, by rw [htables], .inr ⟨rfl, seen, hstart, howner.symm⟩⟩
  | relayed relayUrl owner _ _ _ _ htables =>
      apply Generations.of_sameHub
      rw [htables]
      exact sameHub_changeRelay
  | other hsame => exact .of_sameHub hsame

/-- A fenced move goes to another Host. -/
theorem Generations.fenced {next : HubRun} (hgenerations : Generations run step next)
    (hfenced : step.Fenced run) {installation installation' : Installation}
    (hsome : run.store.projection.installation = some installation)
    (hsome' : next.store.projection.installation = some installation') :
    installation'.generation = installation.generation ↔
      installation'.hubHostId = installation.hubHostId := by
  obtain ⟨reached, hreached, hlaw⟩ := hgenerations.2 installation hsome
  rw [hreached, Option.some.injEq] at hsome'
  subst hsome'
  rcases hlaw with ⟨hhub, hgeneration⟩ | ⟨hgeneration, seen, hstart, howner⟩
  · exact iff_of_true hgeneration hhub
  · apply iff_of_false
    · omega
    · rw [← howner]
      exact (hfenced.move seen _ hstart).1

/-- The moves that succeeded started from earlier generations, each from
another. -/
structure MovedOnce (run : HubRun) : Prop where
  earlier : ∀ seen ∈ run.moved, ∃ installation,
    run.store.projection.installation = some installation ∧
      seen.generation < installation.generation
  once : run.moved.Nodup

theorem movedOnce_initial : initial.MovedOnce := by
  constructor <;> simp [initial]

theorem MovedOnce.kept {next : HubRun} (honce : run.MovedOnce) (hfenced : step.Fenced run)
    (hstepped : Stepped run step next) : next.MovedOnce := by
  have hgenerations := hstepped.generations
  have hearlier : ∀ seen ∈ run.moved, ∃ installation,
      next.store.projection.installation = some installation ∧
        seen.generation < installation.generation := by
    intro seen hseen
    obtain ⟨installation, hsome, hlt⟩ := honce.earlier seen hseen
    obtain ⟨installation', hsome', hlaw⟩ := hgenerations.2 installation hsome
    exact ⟨installation', hsome', by omega⟩
  cases hstepped with
  | moved seen target installation hstart hsome howner htables hmoved =>
      have hgeneration : installation.generation = seen.generation :=
        (hfenced.move seen target hstart).2 installation hsome howner
      constructor
      · rw [hmoved]
        intro other hother
        rcases List.mem_cons.mp hother with rfl | hother
        · refine ⟨movedHub installation target, by rw [htables], ?_⟩
          change other.generation < installation.generation + 1
          omega
        · exact hearlier other hother
      · rw [hmoved, List.nodup_cons]
        refine ⟨fun hmem => ?_, honce.once⟩
        obtain ⟨installation', hsome', hlt⟩ := honce.earlier seen hmem
        rw [hsome, Option.some.injEq] at hsome'
        subst hsome'
        omega
  | relayed _ _ _ _ _ _ _ hmoved => exact ⟨by rwa [hmoved], by rw [hmoved]; exact honce.once⟩
  | other _ _ _ hmoved => exact ⟨by rwa [hmoved], by rw [hmoved]; exact honce.once⟩

/-- The Host that is Hub. -/
def IsHub (run : HubRun) (hostId : HostId) : Prop :=
  ∃ installation, run.store.projection.installation = some installation ∧
    installation.hubHostId = hostId

theorem Stepped.relays {next : HubRun} (hfenced : step.Fenced run)
    (hstepped : Stepped run step next) :
    RelaysKept run.IsHub run.store.projection next.store.projection := by
  cases hstepped with
  | moved _ _ _ _ _ _ htables =>
      apply RelaysKept.of_eq
      rw [htables]
  | relayed relayUrl owner installation _ hsome howner htables =>
      rw [htables]
      refine relaysKept_changeRelay.mono ?_
      rintro hostId rfl
      exact ⟨installation, hsome, howner hfenced⟩
  | other _ hrelays => exact hrelays _

theorem Stepped.relayed_hub {next : HubRun} (hfenced : step.Fenced run)
    (hstepped : Stepped run step next) {relayUrl : String}
    (hrelay : step.relayUrl = some relayUrl) :
    next.store.projection = run.store.projection ∨ ∃ owner, run.IsHub owner ∧
      next.store.projection = run.store.projection.changeRelay (some relayUrl) (some owner) := by
  cases hstepped with
  | moved seen target _ hstart =>
      cases step with
      | command op => cases op <;> simp_all [HubStep.start, HubStep.relayUrl]
      | move => cases hrelay
      | _ => cases hstart
  | relayed relayUrl' owner installation hrelay' hsome howner htables =>
      rw [hrelay, Option.some.injEq] at hrelay'
      subst hrelay'
      exact .inr ⟨owner, ⟨installation, hsome, howner hfenced⟩, htables⟩
  | other _ _ hidle => exact .inl (hidle (by simp [hrelay]))

/-- Every step finds what its caller has read. -/
def FencedRun (world : World) : HubRun → List HubStep → Prop
  | _, [] => True
  | run, step :: steps => step.Fenced run ∧ FencedRun world (run.step world step) steps

theorem sound_after (world : World) (steps : List HubStep) : (after world steps).Sound := by
  have hfold : ∀ run : HubRun, run.Sound → (steps.foldl (HubRun.step world) run).Sound := by
    induction steps with
    | nil => exact fun _ hsound => hsound
    | cons step steps ih => exact fun run hsound => ih _ (hsound.kept step)
  exact hfold initial sound_initial

theorem movedOnce_after (world : World) (steps : List HubStep)
    (hfenced : FencedRun world initial steps) : (after world steps).MovedOnce := by
  have hfold : ∀ run : HubRun, run.Sound → FencedRun world run steps → run.MovedOnce →
      (steps.foldl (HubRun.step world) run).MovedOnce := by
    clear hfenced
    induction steps with
    | nil => exact fun _ _ _ honce => honce
    | cons step steps ih =>
        intro run hsound hfenced honce
        exact ih _ (hsound.kept step) hfenced.2
          (honce.kept hfenced.1 (step_stepped world hsound.keyed step))
  exact hfold initial sound_initial hfenced movedOnce_initial

/-- Hub ownership over every interleaving.  What a caller has read need not hold
when it acts; where it does, a generation is moved from once and a relay update
reaches the Hub alone. -/
theorem hub_ownership (world : World) (steps : List HubStep) :
    let run := after world steps
    (∀ hostId, run.IsHub hostId → hostActive hostId run.store.projection = true) ∧
    (∀ step, Generations run step (run.step world step)) ∧
    (FencedRun world initial steps → run.moved.Nodup ∧
      ∀ step : HubStep, step.Fenced run →
        let next := run.step world step
        (∀ installation installation', run.store.projection.installation = some installation →
          next.store.projection.installation = some installation' →
          (installation'.generation = installation.generation ↔
            installation'.hubHostId = installation.hubHostId)) ∧
        RelaysKept run.IsHub run.store.projection next.store.projection ∧
        ∀ relayUrl, step.relayUrl = some relayUrl →
          next.store.projection = run.store.projection ∨ ∃ owner, run.IsHub owner ∧
            next.store.projection =
              run.store.projection.changeRelay (some relayUrl) (some owner)) := by
  intro run
  have hsound : run.Sound := sound_after world steps
  have hstepped : ∀ step, Stepped run step (run.step world step) :=
    step_stepped world hsound.keyed
  refine ⟨?_, fun step => (hstepped step).generations, fun hfenced => ?_⟩
  · rintro hostId ⟨installation, hsome, rfl⟩
    exact hsound.hubbed.hub installation hsome
  · refine ⟨(movedOnce_after world steps hfenced).once, fun step hstep => ?_⟩
    refine ⟨?_, ?_, ?_⟩
    · exact fun _ _ => (hstepped step).generations.fenced hstep
    · exact (hstepped step).relays hstep
    · exact fun relayUrl => (hstepped step).relayed_hub hstep

/-- The Hub is moved away and back; the caller that read the first generation
moves it again, and another sets the relay URL of the former Hub. -/
theorem stale_hub_move :
    let context : String → CommandContext := fun commandId =>
      { commandId, actor := .system, correlationId := none }
    let first : HubSeen := ⟨⟨"1"⟩, 1⟩
    let run := after World.numbered [.command (.initializeHub (context "1") "hub" "a" "b" "c"),
      .command (.createInvitation (context "2") 100),
      .command (.consumeInvitation (context "3") ⟨"8"⟩ "9" "desktop" "d" "e" "f"), .read,
      .move first (context "4") ⟨"13"⟩, .command (.moveHub (context "5") ⟨"13"⟩ ⟨"1"⟩),
      .move first (context "6") ⟨"13"⟩]
    let next := run.step World.numbered (.relay first (context "7") "g")
    run.moved.count first = 2 ∧
    run.store.projection.installation.map (·.hubHostId) = some ⟨"13"⟩ ∧
    (run.store.projection.hosts.any fun row =>
      row.host.id = ⟨"1"⟩ ∧ row.host.relayUrl = some "g") = false ∧
    (next.store.projection.hosts.any fun row =>
      row.host.id = ⟨"1"⟩ ∧ row.host.relayUrl = some "g") = true := by
  decide +kernel

end HubRun

end Mews
