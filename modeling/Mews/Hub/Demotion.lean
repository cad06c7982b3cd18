import Mews.Hub.Service
import Mews.Store.Hub

/-!
# Demotion

Once the source of a move has written the phase `activating`, it has to end as a
joined Host without any file of a Hub.  Whether it can, after a crash at any
point, depends on how far the demotion got and on whether the target still
answers.
-/

namespace Mews

open Protocol Durable

structure Machine (B : Type) where
  root : Root B
  service : Option Service

namespace RootAction

variable {B A : Type} [DecidableEq B] (world : HandoffWorld B)

/-- What the target does for the source in one round of its recovery. -/
def receiveActivation (moveNonce : MoveNonce) : RootAction B Unit := do
  armHubTransfer moveNonce
  activateHubTransfer world

/-- What the source does once both requests have been answered. -/
def demote (context : CommandContext) : RootAction B Service := do
  demoteHubFiles
  serveJoinedHost world context

/-- Where a start of the machine ends: it crashes on the way, or it serves. -/
inductive Settles (program : RootAction B Service) (root : Root B) : Machine B → Prop
  | interrupted (reached : Root B) (hreached : reached ∈ program.crashes root) :
      Settles program root { root := reached, service := none }
  | serves (service : Service) (hserves : (program root).outcome = .ok service) :
      Settles program root { root := program.after root, service := some service }

end RootAction

open RootAction

/-- The source and the target of a move. -/
structure Handover (B : Type) where
  source : Machine B
  target : Machine B

namespace Handover

variable {B : Type} [DecidableEq B] (world : HandoffWorld B)

inductive Restarted (machine : Machine B) : Machine B → Prop
  | crashed : Restarted machine { machine with service := none }
  | started (context : CommandContext) (machine' : Machine B) (hstopped : machine.service = none)
      (hsettles : Settles (serveMachine world context) machine.root machine') :
      Restarted machine machine'

/-- The source asks for a move: in the request that moves the Hub, or in the
recovery after a restart. -/
inductive Asks (machine : Machine B) (recovery : HubMoveRecovery) : Prop
  | moving (hhub : machine.service = some .hub)
      (hphase : machine.root.movePhase = some .activating)
      (hrecovery : machine.root.moveRecovery = some recovery)
  | recovering (hrecovering : machine.service = some (.recovering recovery))

/-- The target handles a request; the reply may be lost. -/
inductive Handles (action : RootAction B Unit) (machine : Machine B) : Machine B → Prop
  | crashed (reached : Root B) (hreached : reached ∈ action.crashes machine.root) :
      Handles action machine { root := reached, service := none }
  | replied : Handles action machine { machine with root := action.after machine.root }

/-- A target that has a database no longer answers as a Host. -/
def Joined (machine : Machine B) : Prop :=
  machine.service = some .joined ∧ machine.root.database = none

/-- What can happen between the two, with no other move: restarts and crashes of
either, and rounds of the source's requests over a link. -/
inductive Progress (handover : Handover B) : Handover B → Prop
  | source (source : Machine B) (hrestarted : Restarted world handover.source source) :
      Progress handover { handover with source }
  | target (target : Machine B) (hrestarted : Restarted world handover.target target) :
      Progress handover { handover with target }
  | promoted (context : CommandContext) (target : Machine B)
      (hjoined : handover.target.service = some .joined)
      (hdatabase : handover.target.root.database.isSome = true)
      (hsettles : Settles (serve world context) handover.target.root target) :
      Progress handover { handover with target }
  | received (recovery : HubMoveRecovery) (action : RootAction B Unit) (target : Machine B)
      (hasks : Asks handover.source recovery) (hjoined : Joined handover.target)
      (haction : action = armHubTransfer recovery.moveNonce ∨
        action = receiveActivation world recovery.moveNonce)
      (hhandles : Handles action handover.target target) :
      Progress handover { handover with target }
  /-- The request that moves the Hub only waits for the target to be armed. -/
  | armed (recovery : HubMoveRecovery) (context : CommandContext) (source : Machine B)
      (hhub : handover.source.service = some .hub) (hasks : Asks handover.source recovery)
      (hjoined : Joined handover.target)
      (harmed : ((armHubTransfer recovery.moveNonce) handover.target.root).outcome = .ok ())
      (hsettles : Settles (demote world context) handover.source.root source) :
      Progress handover
        { source
          target :=
            { handover.target with
              root := (armHubTransfer recovery.moveNonce).after handover.target.root } }
  | answered (recovery : HubMoveRecovery) (context : CommandContext) (source : Machine B)
      (hrecovering : handover.source.service = some (.recovering recovery))
      (hjoined : Joined handover.target)
      (hactivated : ((receiveActivation world recovery.moveNonce)
        handover.target.root).outcome = .ok ())
      (hsettles : Settles (demote world context) handover.source.root source) :
      Progress handover
        { source
          target :=
            { handover.target with
              root := (receiveActivation world recovery.moveNonce).after handover.target.root } }

/-- The source serves as a joined Host and no file of a Hub is left. -/
def Demoted (handover : Handover B) : Prop :=
  handover.source.service = some .joined ∧
    ∀ file ∈ hubFiles, handover.source.root.has file = false

def Completes (handover : Handover B) : Prop :=
  ∃ handover', Relation.ReflTransGen (Progress world) handover handover' ∧ Demoted handover'

end Handover

/-! ## The target -/

namespace RootAction

section Target

variable {B : Type} [DecidableEq B] {world : HandoffWorld B} {root : Root B}

variable (world) in
/-- A round of the recovery keeps what the target could do, until it has the
database; it succeeds exactly when the target can do it. -/
theorem holds_receiveActivation (moveNonce : MoveNonce) (hdatabase : root.database = none) :
    holds (receiveActivation world moveNonce) root
      (fun reached => reached.database.isSome = true ∨
        (Acceptable world moveNonce reached ↔ Acceptable world moveNonce root))
      (fun _ reached => reached.database.isSome = true ∧ Acceptable world moveNonce root)
      fun _ _ => ¬Acceptable world moveNonce root := by
  rw [receiveActivation, holds_bind]
  refine holds_mono (holds_armHubTransfer moveNonce) ?_ ?_ ?_
  · rintro _ rfl
    exact .inr acceptable_armed
  · rintro _ _ ⟨rfl, manifest, htransfer, hnonce⟩
    refine holds_mono (holds_activateHubTransfer hdatabase) ?_ ?_ ?_
    · rintro reached (hpending | ⟨hdatabase', -⟩)
      · exact .inr (hpending.acceptable_iff.trans acceptable_armed)
      · exact .inl hdatabase'
    · rintro _ reached ⟨hdatabase', other, hready⟩
      obtain rfl := hready.manifest_eq htransfer
      exact ⟨hdatabase', other, hnonce, hready⟩
    · rintro _ reached ⟨-, hunready⟩ ⟨other, -, hready⟩
      exact hunready ⟨other, hready⟩
  · rintro _ _ ⟨-, hrefused⟩ ⟨manifest, hnonce, hready⟩
    exact hrefused ⟨manifest, hready.transfer, hnonce⟩

end Target

/-! ## What the source does -/

section Source

variable {B : Type} {world : HandoffWorld B} {root : Root B}

theorem Settles.of_holds {program : RootAction B Service} {machine : Machine B}
    {along : Root B → Prop} {post : Service → Root B → Prop} {failed : HubError → Root B → Prop}
    (hsettles : Settles program root machine) (hprogram : holds program root along post failed)
    (hstart : along root) :
    machine.service = none ∧ along machine.root ∨
      ∃ service, machine.service = some service ∧ post service machine.root := by
  cases hsettles with
  | interrupted reached hreached => exact .inl ⟨rfl, of_mem_crashes hprogram hstart hreached⟩
  | serves service hserves =>
      have hend := hprogram.2
      rw [hserves] at hend
      exact .inr ⟨service, rfl, hend⟩

theorem Settles.of_holds_total {program : RootAction B Service} {along : Root B → Prop}
    {post : Service → Root B → Prop} {failed : HubError → Root B → Prop}
    (hprogram : holds program root along post failed) (htotal : ∀ error reached, ¬failed error reached) :
    ∃ service reached, Settles program root { root := reached, service := some service } ∧
      post service reached := by
  have hend := hprogram.2
  cases houtcome : (program root).outcome with
  | ok service =>
      rw [houtcome] at hend
      exact ⟨service, _, .serves service houtcome, hend⟩
  | error error =>
      rw [houtcome] at hend
      exact absurd hend (htotal error _)

/-- What the files of a joined Host have in common along a demotion. -/
structure Kept (root reached : Root B) : Prop where
  hubState : reached.hubState = root.hubState
  prepared : reached.databasePrepared = root.databasePrepared
  activate : reached.activate = root.activate
  promote : reached.promote = root.promote

theorem Kept.remove {file : RootFile} {reached : Root B} (hkept : Kept root reached)
    (hmem : file ∈ hubFiles) : Kept root (reached.remove file) := by
  simp only [hubFiles, List.mem_cons, List.not_mem_nil, or_false] at hmem
  rcases hmem with rfl | rfl | rfl | rfl | rfl | rfl | rfl | rfl <;>
    exact ⟨hkept.hubState, hkept.prepared, hkept.activate, hkept.promote⟩

theorem holds_demoteHubFiles :
    holds demoteHubFiles root (fun reached => Kept root reached ∧ reached.database = none)
      (fun _ reached => Kept root reached ∧ ∀ file ∈ hubFiles, reached.has file = false)
      fun _ _ => False := by
  have hfirst : Kept root (root.remove .database) :=
    Kept.remove ⟨rfl, rfl, rfl, rfl⟩ List.mem_cons_self
  rw [demoteHubFiles, removeFiles, hubFiles, each, holds_andThen, holds_removeFile]
  refine ⟨⟨hfirst, rfl⟩, ?_⟩
  apply holds_mono (holds_each (fun rest reached => rest ⊆ hubFiles ∧ Kept root reached ∧
    reached.database = none ∧ ∀ file ∈ hubFiles, file ∉ rest → reached.has file = false) ?_ ?_)
  · exact fun _ h => h
  · rintro _ reached ⟨-, hkept, -, hremoved⟩
    exact ⟨hkept, fun file hmem => hremoved file hmem List.not_mem_nil⟩
  · exact fun _ _ h => h
  · refine ⟨List.subset_cons_self _ _, hfirst, rfl, ?_⟩
    intro file hmem hrest
    rcases List.mem_cons.mp hmem with rfl | hmem
    · exact Root.has_remove .database
    · exact absurd hmem hrest
  · rintro file rest reached ⟨hsubset, hkept, hdatabase, hremoved⟩
    have hnext : Kept root (reached.remove file) := hkept.remove (hsubset List.mem_cons_self)
    have hnone : (reached.remove file).database = none := by
      by_cases heq : file = .database
      · rw [heq]
        rfl
      · rw [Root.database_remove heq, hdatabase]
    rw [holds_removeFile]
    refine ⟨⟨hnext, hnone⟩, fun other hmem => hsubset (List.mem_cons_of_mem _ hmem), hnext,
      hnone, ?_⟩
    intro other hmem hrest
    by_cases heq : other = file
    · rw [heq, Root.has_remove]
    · rw [Root.has_remove_of_ne heq]
      exact hremoved other hmem (by simp [heq, hrest])

/-- A directory that a demotion has begun to clear. -/
structure Released (root : Root B) : Prop where
  database : root.database = none
  hubState : root.hubState.isSome = true
  prepared : root.databasePrepared = none
  promote : root.promote = false

theorem Pending.released {reached : Root B} (hpending : Pending root reached)
    (hreleased : Released root) : Released reached where
  database := hpending.database.trans hreleased.database
  hubState := by rw [hpending.hubState, hreleased.hubState]
  prepared := hpending.prepared.trans hreleased.prepared
  promote := hpending.promote.trans hreleased.promote

/-- Where a joined Host can start. -/
structure CanJoin (root : Root B) : Prop where
  activate : root.activate = false
  promote : root.promote = false
  hubState : root.hubState.isSome = true

theorem not_ready_of_prepared (hprepared : root.databasePrepared = none) :
    ¬∃ manifest, Ready world root manifest := by
  rintro ⟨manifest, hready⟩
  obtain ⟨prepared, store, hsome, -⟩ := hready.database
  rw [hprepared] at hsome
  cases hsome

variable [DecidableEq B]

theorem holds_serveJoinedHost (context : CommandContext) (hjoin : CanJoin root) :
    holds (serveJoinedHost world context) root (fun reached => reached = root)
      (fun service reached => service = .joined ∧ reached = root) fun _ _ => False := by
  obtain ⟨state, hstate⟩ := Option.isSome_iff_exists.mp hjoin.hubState
  simp [serveJoinedHost, hjoin.activate, hjoin.promote, hstate]

/-- A leftover activation mark keeps a demoted Hub from ever serving. -/
theorem holds_serveJoinedHost_marked (context : CommandContext) (hreleased : Released root)
    (hactivate : root.activate = true) :
    holds (serveJoinedHost world context) root (Pending root) (fun _ _ => False)
      fun _ reached => Pending root reached := by
  have hunready : ¬∃ manifest, Ready world root manifest :=
    not_ready_of_prepared hreleased.prepared
  simp only [serveJoinedHost, holds_bind, holds_reads, hactivate, if_true]
  apply holds_mono (holds_activateHubTransfer hreleased.database)
  · rintro reached (hpending | ⟨-, hready⟩)
    · exact hpending
    · exact absurd hready hunready
  · rintro _ reached ⟨-, hready⟩
    exact absurd hready hunready
  · exact fun _ reached h => h.1

/-- What the request that moves the Hub leaves when it has written `activating`. -/
structure Releasing (world : HandoffWorld B) (root : Root B)
    (recovery : HubMoveRecovery) : Prop where
  database : ∃ store installation host authority, root.database = some store ∧
    store.projection.installation = some installation ∧
    store.host recovery.targetHostId = .ok host ∧ installation.publicKey ≠ "" ∧
    (root.credentials .installationKey).active = some authority ∧
    world.publicKey authority = some installation.publicKey
  phase : root.movePhase = some .activating
  recovery : root.moveRecovery = some recovery
  noiseKey : ∃ key, (root.credentials .hubNoiseKey).active = some key ∧ world.isNoiseKey key = true
  hubState : root.hubState.isSome = true
  prepared : root.databasePrepared = none
  promote : root.promote = false

omit [DecidableEq B] in
theorem Releasing.database_isSome {recovery : HubMoveRecovery}
    (hreleasing : Releasing world root recovery) : root.database.isSome = true := by
  obtain ⟨store, -, -, -, hdatabase, -⟩ := hreleasing.database
  rw [hdatabase]
  rfl

omit [DecidableEq B] in
theorem Releasing.not_released {recovery : HubMoveRecovery}
    (hreleasing : Releasing world root recovery) : ¬Released root := by
  intro hreleased
  have hdatabase := hreleasing.database_isSome
  rw [hreleased.database] at hdatabase
  cases hdatabase

theorem holds_serveMachine_releasing {recovery : HubMoveRecovery} (context : CommandContext)
    (hreleasing : Releasing world root recovery) :
    holds (serveMachine world context) root (fun reached => reached = root)
      (fun service reached => service = .recovering recovery ∧ reached = root)
      fun _ _ => False := by
  obtain ⟨store, installation, host, authority, hdatabase, hinstallation, hhost, hpublic, hactive,
    hauthority⟩ := hreleasing.database
  obtain ⟨key, hkey, hnoise⟩ := hreleasing.noiseKey
  simp [serveMachine, serve, openHandoff, openDatabase, loadNoiseKey, loadKey, database,
    RootAction.installation, validateInstallationAuthority, settlePromotion, hreleasing.phase,
    hreleasing.recovery, hreleasing.promote, hdatabase, hinstallation, hhost, hpublic, hactive,
    hauthority, hkey, hnoise, Except.mapError]

/-- A demotion ends as a joined Host without a file of a Hub, unless the
activation mark is there. -/
theorem holds_demote {recovery : HubMoveRecovery} (context : CommandContext)
    (hreleasing : Releasing world root recovery) :
    holds (demote world context) root
      (fun reached => Released reached ∧ reached.activate = root.activate)
      (fun service reached => service = .joined ∧ Released reached ∧
        reached.activate = root.activate ∧ root.activate = false ∧
        ∀ file ∈ hubFiles, reached.has file = false)
      fun _ _ => root.activate = true := by
  have hreleased : ∀ reached, Kept root reached → reached.database = none → Released reached := by
    intro reached hkept hdatabase
    refine ⟨hdatabase, ?_, ?_, ?_⟩
    · rw [hkept.hubState, hreleasing.hubState]
    · exact hkept.prepared.trans hreleasing.prepared
    · exact hkept.promote.trans hreleasing.promote
  rw [demote, holds_bind]
  apply holds_mono holds_demoteHubFiles
  · exact fun reached h => ⟨hreleased reached h.1 h.2, h.1.activate⟩
  · rintro _ cleared ⟨hkept, hcleared⟩
    have hdatabase : cleared.database = none := by
      simpa [Root.has] using hcleared .database List.mem_cons_self
    have hdone := hreleased cleared hkept hdatabase
    cases hactivate : root.activate with
    | true =>
        have hmarked : cleared.activate = true := hkept.activate.trans hactivate
        apply holds_mono (holds_serveJoinedHost_marked context hdone hmarked)
        · exact fun reached hpending => ⟨hpending.released hdone, hpending.activate hmarked⟩
        · exact fun _ _ h => h.elim
        · exact fun _ _ _ => rfl
    | false =>
        have hunmarked : cleared.activate = false := hkept.activate.trans hactivate
        apply holds_mono (holds_serveJoinedHost context ⟨hunmarked, hdone.promote, hdone.hubState⟩)
        · rintro _ rfl
          exact ⟨hdone, hunmarked⟩
        · rintro service _ ⟨rfl, rfl⟩
          exact ⟨rfl, hdone, hunmarked, rfl, hcleared⟩
        · exact fun _ _ h => h.elim
  · exact fun _ _ h => h.elim

theorem holds_serveMachine_released (context : CommandContext) (hreleased : Released root) :
    holds (serveMachine world context) root
      (fun reached => Released reached ∧
        (reached = root ∨ root.activate = true ∧ reached.activate = true))
      (fun service reached => service = .joined ∧ reached = root ∧ root.activate = false)
      fun _ _ => root.activate = true := by
  rw [serveMachine, holds_bind, holds_reads, hreleased.database, holds_ite]
  refine ⟨nofun, fun _ => ?_⟩
  cases hactivate : root.activate with
  | true =>
      apply holds_mono (holds_serveJoinedHost_marked context hreleased hactivate)
      · intro reached hpending
        exact ⟨hpending.released hreleased, .inr ⟨rfl, hpending.activate hactivate⟩⟩
      · exact fun _ _ h => h.elim
      · exact fun _ _ _ => rfl
  | false =>
      apply holds_mono (holds_serveJoinedHost context ⟨hactivate, hreleased.promote,
        hreleased.hubState⟩)
      · rintro _ rfl
        exact ⟨hreleased, .inl rfl⟩
      · rintro service _ ⟨rfl, rfl⟩
        exact ⟨rfl, rfl, rfl⟩
      · exact fun _ _ h => h.elim

/-- A target without a database stays one that the source can reach no more. -/
theorem holds_serveMachine_silent {moveNonce : MoveNonce} (context : CommandContext)
    (hsilent : Opened root ∨ ¬Acceptable world moveNonce root ∨ ¬CanJoin root) :
    holds (serveMachine world context) root
      (fun reached => Opened reached ∨ ¬Acceptable world moveNonce reached ∨ ¬CanJoin reached)
      (fun _ reached => Opened reached ∨ ¬Acceptable world moveNonce reached)
      fun _ _ => True := by
  rw [serveMachine, holds_bind, holds_reads, holds_ite]
  constructor
  · intro _
    exact holds_mono (holds_serve context) (fun _ h => .inl h) (fun _ _ h => .inl h)
      fun _ _ _ => trivial
  · intro hclosed
    have hdatabase : root.database = none := by simpa using hclosed
    have hopened : ¬Opened root := hclosed
    cases hactivate : root.activate with
    | true =>
        simp only [serveJoinedHost, holds_bind, holds_reads, hactivate, if_true]
        apply holds_mono (holds_activateHubTransfer hdatabase)
        · rintro reached (hpending | ⟨hreached, -⟩)
          · refine .inr (.inr fun hjoin => ?_)
            have hmarked := hpending.activate hactivate
            rw [hjoin.activate] at hmarked
            cases hmarked
          · exact .inl hreached
        · rintro _ reached ⟨hreached, -⟩
          rw [holds_ite]
          constructor
          · intro _
            exact holds_mono (holds_serve context) (fun _ h => .inl h) (fun _ _ h => .inl h)
              fun _ _ _ => trivial
          · intro _
            simp only [holds_bind, holds_load, holds_pure]
            exact ⟨fun _ _ => .inl hreached, fun _ => trivial⟩
        · exact fun _ _ _ => trivial
    | false =>
        simp only [serveJoinedHost, holds_bind, holds_reads, hactivate, Bool.false_eq_true, if_false]
        rw [holds_ite]
        constructor
        · intro _
          exact holds_mono (holds_serve context) (fun _ h => .inl h) (fun _ _ h => .inl h)
            fun _ _ _ => trivial
        · intro hpromote
          simp only [holds_bind, holds_load, holds_pure]
          refine ⟨fun state hstate => ?_, fun _ => trivial⟩
          have hjoin : CanJoin root := ⟨hactivate, by simpa using hpromote, by simp [hstate]⟩
          rcases hsilent with h | h | h
          · exact absurd h hopened
          · exact .inr h
          · exact absurd hjoin h

end Source

end RootAction

namespace Handover

variable {B : Type} [DecidableEq B] {world : HandoffWorld B}

/-- The target answers a move, or does once it has started. -/
structure Answers (world : HandoffWorld B) (moveNonce : MoveNonce) (machine : Machine B) : Prop where
  database : machine.root.database = none
  acceptable : Acceptable world moveNonce machine.root
  joins : machine.service = some .joined ∨ CanJoin machine.root

/-- The source between the phase `activating` and the end of its demotion. -/
inductive Leaving (world : HandoffWorld B) (recovery : HubMoveRecovery) (machine : Machine B) : Prop
  | releasing (hreleasing : Releasing world machine.root recovery)
      (hservice : ∀ service, machine.service = some service →
        service = .hub ∨ service = .recovering recovery)
  | released (hreleased : Released machine.root)
      (hservice : ∀ service, machine.service = some service →
        service = .joined ∧ machine.root.activate = false)

/-! ## What one step does -/

section Steps

variable {recovery : HubMoveRecovery} {machine machine' : Machine B}

omit [DecidableEq B] in
theorem Leaving.releasing_of_asks {asked : HubMoveRecovery}
    (hleaving : Leaving world recovery machine) (hasks : Asks machine asked) :
    Releasing world machine.root recovery ∧ asked = recovery := by
  cases hleaving with
  | releasing hreleasing hservice =>
      refine ⟨hreleasing, ?_⟩
      cases hasks with
      | moving _ _ hrecovery => exact Option.some.inj (hrecovery.symm.trans hreleasing.recovery)
      | recovering hrecovering =>
          rcases hservice _ hrecovering with h | h
          · cases h
          · exact Service.recovering.inj h
  | released _ hservice =>
      cases hasks with
      | moving hhub => cases (hservice _ hhub).1
      | recovering hrecovering => cases (hservice _ hrecovering).1

/-- A restart changes nothing on the source but what a leftover mark makes it do. -/
theorem Leaving.restarted (hleaving : Leaving world recovery machine)
    (hrestarted : Restarted world machine machine') :
    Leaving world recovery machine' ∧ machine'.service ≠ some .hub ∧
      (machine'.root = machine.root ∨
        machine.root.activate = true ∧ machine'.root.activate = true) := by
  obtain ⟨root, service⟩ := machine
  obtain ⟨root', service'⟩ := machine'
  cases hrestarted with
  | crashed =>
      cases hleaving with
      | releasing hreleasing _ => exact ⟨.releasing hreleasing (by simp), by simp, .inl rfl⟩
      | released hreleased _ => exact ⟨.released hreleased (by simp), by simp, .inl rfl⟩
  | started context _ _ hsettles =>
      cases hleaving with
      | releasing hreleasing _ =>
          rcases hsettles.of_holds (holds_serveMachine_releasing context hreleasing) rfl with
            ⟨rfl, rfl⟩ | ⟨_, rfl, rfl, rfl⟩
          · exact ⟨.releasing hreleasing (by simp), by simp, .inl rfl⟩
          · exact ⟨.releasing hreleasing (by simp), by simp, .inl rfl⟩
      | released hreleased _ =>
          rcases hsettles.of_holds (holds_serveMachine_released context hreleased)
            ⟨hreleased, .inl rfl⟩ with ⟨rfl, hreached, hkept⟩ | ⟨_, rfl, rfl, rfl, hunmarked⟩
          · exact ⟨.released hreached (by simp), by simp, hkept⟩
          · have hservice : ∀ service, some Service.joined = some service →
                service = .joined ∧ root'.activate = false :=
              fun _ h => ⟨(Option.some.inj h).symm, hunmarked⟩
            exact ⟨.released hreleased hservice, by simp, .inl rfl⟩

theorem Leaving.demoted {context : CommandContext} (hreleasing : Releasing world machine.root recovery)
    (hsettles : Settles (demote world context) machine.root machine') :
    Leaving world recovery machine' ∧ machine'.service ≠ some .hub ∧
      machine'.root.activate = machine.root.activate := by
  obtain ⟨root', service'⟩ := machine'
  have hdemote : holds (demote world context) machine.root
      (fun reached => (reached = machine.root ∨ Released reached) ∧
        reached.activate = machine.root.activate) _ _ :=
    holds_mono (holds_demote context hreleasing) (fun _ h => ⟨.inr h.1, h.2⟩) (fun _ _ h => h)
      fun _ _ h => h
  rcases hsettles.of_holds hdemote ⟨.inl rfl, rfl⟩ with
    ⟨rfl, hreached, hactivate⟩ | ⟨_, rfl, rfl, hreleased, hactivate, hunmarked, -⟩
  · rcases hreached with rfl | hreleased
    · exact ⟨.releasing hreleasing (by simp), by simp, rfl⟩
    · exact ⟨.released hreleased (by simp), by simp, hactivate⟩
  · have hservice : ∀ service, some Service.joined = some service →
        service = .joined ∧ root'.activate = false :=
      fun _ h => ⟨(Option.some.inj h).symm, hactivate.trans hunmarked⟩
    exact ⟨.released hreleased hservice, by simp, hactivate⟩

theorem Leaving.progress {handover handover' : Handover B}
    (hleaving : Leaving world recovery handover.source) (hprogress : Progress world handover handover') :
    Leaving world recovery handover'.source := by
  cases hprogress with
  | source _ hrestarted => exact (hleaving.restarted hrestarted).1
  | target | promoted | received => exact hleaving
  | armed _ _ _ _ hasks _ _ hsettles =>
      exact (Leaving.demoted (hleaving.releasing_of_asks hasks).1 hsettles).1
  | answered _ _ _ hrecovering _ _ hsettles =>
      exact (Leaving.demoted (hleaving.releasing_of_asks (.recovering hrecovering)).1 hsettles).1

variable {moveNonce : MoveNonce}

omit [DecidableEq B] in
theorem not_answers_iff :
    ¬Answers world moveNonce machine ↔ Opened machine.root ∨
      ¬Acceptable world moveNonce machine.root ∨
      machine.service ≠ some .joined ∧ ¬CanJoin machine.root := by
  constructor
  · intro hsilent
    by_contra hall
    simp only [not_or, not_and, not_not] at hall
    obtain ⟨hclosed, hacceptable, hjoins⟩ := hall
    exact hsilent ⟨by simpa [Opened] using hclosed, hacceptable, or_iff_not_imp_left.mpr hjoins⟩
  · rintro hsilent ⟨hdatabase, hacceptable, hjoins⟩
    rcases hsilent with h | h | ⟨hservice, hjoin⟩
    · simp [Opened, hdatabase] at h
    · exact h hacceptable
    · exact hjoins.elim hservice hjoin

theorem not_answers_restarted (hsilent : ¬Answers world moveNonce machine)
    (hrestarted : Restarted world machine machine') : ¬Answers world moveNonce machine' := by
  rw [not_answers_iff] at hsilent ⊢
  cases hrestarted with
  | crashed => exact hsilent.imp_right fun h => h.imp_right fun h => ⟨by simp, h.2⟩
  | started context _ hstopped hsettles =>
      have hstart := hsilent.imp_right fun h => h.imp_right And.right
      rcases hsettles.of_holds (holds_serveMachine_silent context hstart) hstart with
        ⟨hnone, hreached⟩ | ⟨_, _, hreached⟩
      · exact hreached.imp_right fun h => h.imp_right fun h => ⟨by simp [hnone], h⟩
      · exact hreached.imp_right .inl

theorem not_answers_received {action : RootAction B Unit} (hjoined : Joined machine)
    (hsilent : ¬Answers world moveNonce machine)
    (haction : action = armHubTransfer moveNonce ∨ action = receiveActivation world moveNonce)
    (hhandles : Handles action machine machine') : ¬Answers world moveNonce machine' := by
  have hrefuses : ¬Acceptable world moveNonce machine.root := fun hacceptable =>
    hsilent ⟨hjoined.2, hacceptable, .inl hjoined.1⟩
  have hkeeps : holds action machine.root
      (fun reached => Opened reached ∨ ¬Acceptable world moveNonce reached)
      (fun _ _ => True) fun _ _ => True := by
    rcases haction with rfl | rfl
    · apply holds_mono (holds_armHubTransfer moveNonce)
      · rintro _ rfl
        exact .inr (acceptable_armed.not.mpr hrefuses)
      · exact fun _ _ _ => trivial
      · exact fun _ _ _ => trivial
    · apply holds_mono (holds_receiveActivation world moveNonce hjoined.2)
      · exact fun reached h => h.imp_right fun hiff => hiff.not.mpr hrefuses
      · exact fun _ _ _ => trivial
      · exact fun _ _ _ => trivial
  rw [not_answers_iff]
  cases hhandles with
  | crashed reached hreached =>
      exact (of_mem_crashes hkeeps (.inr hrefuses) hreached).imp_right .inl
  | replied =>
      exact (of_mem_crashes hkeeps (.inr hrefuses) (after_mem_crashes action machine.root)).imp_right
        .inl

theorem receiveActivation_refused (hjoined : Joined machine)
    (hsilent : ¬Answers world moveNonce machine) :
    ((receiveActivation world moveNonce) machine.root).outcome ≠ .ok () := by
  intro hanswered
  have hend := (holds_receiveActivation world moveNonce hjoined.2).2
  rw [hanswered] at hend
  exact hsilent ⟨hjoined.2, hend.2, .inl hjoined.1⟩

theorem receiveActivation_answered (hanswers : Answers world moveNonce machine) :
    ((receiveActivation world moveNonce) machine.root).outcome = .ok () ∧
      Opened ((receiveActivation world moveNonce).after machine.root) := by
  have hend := (holds_receiveActivation world moveNonce hanswers.database).2
  cases houtcome : ((receiveActivation world moveNonce) machine.root).outcome with
  | ok =>
      rw [houtcome] at hend
      exact ⟨rfl, hend.1⟩
  | error error =>
      rw [houtcome] at hend
      exact absurd hanswers.acceptable hend

end Steps

/-! ## What a run can end in -/

section Runs

variable {recovery : HubMoveRecovery} {handover handover' : Handover B}

/-- A handover whose source no longer ends as a joined Host without Hub files. -/
structure Stranded (world : HandoffWorld B) (recovery : HubMoveRecovery)
    (handover : Handover B) : Prop where
  leaving : Leaving world recovery handover.source
  stopped : handover.source.service ≠ some .hub
  stuck : handover.source.root.activate = true ∨
    (Released handover.source.root ∧ ∃ file ∈ hubFiles, handover.source.root.has file = true) ∨
    Releasing world handover.source.root recovery ∧
      ¬Answers world recovery.moveNonce handover.target

omit [DecidableEq B] in
theorem Stranded.target (hstranded : Stranded world recovery handover) {target : Machine B}
    (hsilent : Releasing world handover.source.root recovery →
      ¬Answers world recovery.moveNonce handover.target →
      ¬Answers world recovery.moveNonce target) :
    Stranded world recovery { handover with target } where
  leaving := hstranded.leaving
  stopped := hstranded.stopped
  stuck := hstranded.stuck.imp_right fun h => h.imp_right fun h => ⟨h.1, hsilent h.1 h.2⟩

theorem Stranded.progress (hstranded : Stranded world recovery handover)
    (hprogress : Progress world handover handover') : Stranded world recovery handover' := by
  cases hprogress with
  | source source hrestarted =>
      obtain ⟨hleaving, hstopped, hroot⟩ := hstranded.leaving.restarted hrestarted
      refine ⟨hleaving, hstopped, ?_⟩
      rcases hroot with hroot | ⟨-, hmarked⟩
      · rw [hroot]
        exact hstranded.stuck
      · exact .inl hmarked
  | target target hrestarted =>
      exact hstranded.target fun _ hsilent => not_answers_restarted hsilent hrestarted
  | promoted context target _ hdatabase hsettles =>
      apply hstranded.target
      intro _ _
      rw [not_answers_iff]
      rcases hsettles.of_holds (holds_serve context) hdatabase with ⟨-, h⟩ | ⟨_, -, h⟩
      · exact .inl h
      · exact .inl h
  | received asked action target hasks hjoined haction hhandles =>
      obtain ⟨-, rfl⟩ := hstranded.leaving.releasing_of_asks hasks
      exact hstranded.target fun _ hsilent =>
        not_answers_received hjoined hsilent haction hhandles
  | armed _ _ _ hhub => exact absurd hhub hstranded.stopped
  | answered asked context source hrecovering hjoined hactivated hsettles =>
      obtain ⟨hreleasing, rfl⟩ := hstranded.leaving.releasing_of_asks (.recovering hrecovering)
      obtain ⟨hleaving, hstopped, hactivate⟩ := Leaving.demoted hreleasing hsettles
      refine ⟨hleaving, hstopped, .inl ?_⟩
      rcases hstranded.stuck with h | ⟨h, -⟩ | ⟨-, hsilent⟩
      · exact hactivate.trans h
      · exact absurd h hreleasing.not_released
      · exact absurd hactivated (receiveActivation_refused hjoined hsilent)

omit [DecidableEq B] in
theorem Stranded.not_demoted (hstranded : Stranded world recovery handover) : ¬Demoted handover := by
  rintro ⟨hjoined, hcleared⟩
  cases hstranded.leaving with
  | releasing _ hservice => rcases hservice _ hjoined with h | h <;> cases h
  | released hreleased hservice =>
      rcases hstranded.stuck with h | ⟨-, file, hmem, hfile⟩ | ⟨hreleasing, -⟩
      · rw [(hservice _ hjoined).2] at h
        cases h
      · rw [hcleared file hmem] at hfile
        cases hfile
      · exact hreleasing.not_released hreleased

theorem Stranded.run (hstranded : Stranded world recovery handover)
    (hrun : Relation.ReflTransGen (Progress world) handover handover') :
    Stranded world recovery handover' := by
  induction hrun with
  | refl => exact hstranded
  | tail _ hprogress ih => exact ih.progress hprogress

theorem Stranded.not_completes (hstranded : Stranded world recovery handover) :
    ¬Completes world handover := by
  rintro ⟨reached, hrun, hdemoted⟩
  exact (hstranded.run hrun).not_demoted hdemoted

theorem Leaving.run (hleaving : Leaving world recovery handover.source)
    (hrun : Relation.ReflTransGen (Progress world) handover handover') :
    Leaving world recovery handover'.source := by
  induction hrun with
  | refl => exact hleaving
  | tail _ hprogress ih => exact ih.progress hprogress

/-- The target ends up serving as a joined Host with what it has prepared. -/
theorem Answers.joins_of_restarts (context : CommandContext) (hanswers : Answers world recovery.moveNonce handover.target) :
    ∃ target, Relation.ReflTransGen (Progress world) handover { handover with target } ∧
      target.root = handover.target.root ∧ target.service = some .joined := by
  rcases hanswers.joins with hservice | hjoin
  · exact ⟨handover.target, .refl, rfl, hservice⟩
  · have hserve : holds (serveMachine world context) handover.target.root
        (fun reached => reached = handover.target.root)
        (fun service reached => service = .joined ∧ reached = handover.target.root)
        fun _ _ => False := by
      rw [serveMachine, holds_bind, holds_reads, hanswers.database, holds_ite]
      exact ⟨nofun, fun _ => holds_serveJoinedHost _ hjoin⟩
    obtain ⟨_, reached, hsettles, rfl, rfl⟩ := Settles.of_holds_total hserve fun _ _ h => h
    refine ⟨{ handover.target with service := some .joined }, ?_, rfl, rfl⟩
    exact .tail (.single (.target _ .crashed)) (.target _ (.started _ _ rfl hsettles))

theorem completes_of_cleared (context : CommandContext) (hstopped : handover.source.service = none)
    (hreleased : Released handover.source.root) (hactivate : handover.source.root.activate = false)
    (hcleared : ∀ file ∈ hubFiles, handover.source.root.has file = false) :
    Completes world handover := by
  have hserve : holds (serveMachine world context) handover.source.root _ _ _ :=
    holds_serveMachine_released context hreleased
  obtain ⟨_, reached, hsettles, rfl, rfl, -⟩ :=
    Settles.of_holds_total hserve fun _ _ h => by simp [hactivate] at h
  exact ⟨_, .single (.source _ (.started context _ hstopped hsettles)), rfl, hcleared⟩

theorem completes_of_answers (context : CommandContext) (hstopped : handover.source.service = none)
    (hreleasing : Releasing world handover.source.root recovery)
    (hactivate : handover.source.root.activate = false)
    (hanswers : Answers world recovery.moveNonce handover.target) : Completes world handover := by
  obtain ⟨target, hjoins, htarget, hjoined⟩ := hanswers.joins_of_restarts context
  obtain ⟨_, _, hstarts, rfl, rfl⟩ :=
    Settles.of_holds_total (holds_serveMachine_releasing context hreleasing) fun _ _ h => h
  obtain ⟨_, cleared, hsettles, rfl, -, -, -, hcleared⟩ :=
    Settles.of_holds_total (holds_demote context hreleasing) fun _ _ h => by simp [hactivate] at h
  have hanswers' : Answers world recovery.moveNonce target := by
    refine ⟨?_, ?_, .inl hjoined⟩
    · rw [htarget, hanswers.database]
    · rw [htarget]
      exact hanswers.acceptable
  refine ⟨_, .tail (.tail hjoins (.source _ (.started context _ hstopped hstarts)))
    (.answered recovery context _ rfl ⟨hjoined, hanswers'.database⟩
      (receiveActivation_answered hanswers').1 hsettles), rfl, hcleared⟩

end Runs

end Handover

/-! ## A Hub that is moved to a desktop -/

namespace Handover

namespace Cut

def context (commandId : String) : CommandContext :=
  { commandId, actor := .system, correlationId := none }

/-- The Hub and the desktop that it is moved to. -/
def store : Store :=
  Store.run World.numbered
    [.initializeHub (context "1") "hub" "a" "b" "c", .createInvitation (context "2") 100,
      .consumeInvitation (context "3") ⟨"8"⟩ "9" "desktop" "d" "e" "f",
      .moveHub (context "4") ⟨"1"⟩ ⟨"13"⟩]

def world : HandoffWorld Store where
  store := World.numbered
  image := fun store => [store]
  openDatabase := List.head?
  openDatabase_image := fun _ => rfl
  publicKey := some
  isNoiseKey := fun _ => true
  isJsonObject := fun _ => true

def recovery : HubMoveRecovery := { targetHostId := ⟨"13"⟩, moveNonce := ⟨1⟩ }

def joined (name : String) : JoinedHostState :=
  { host :=
      { id := ⟨"1"⟩, name, publicKey := "a", noisePublicKey := "b", relayUrl := none
        createdAt := 0 }
    relayUrls := ["f"] }

def secret (contents : String) : CredentialFiles :=
  { active := some contents, incoming := none, prepared := none, previous := none }

def source : Root Store where
  hostKey := "a"
  database := some store
  databaseWal := false
  databaseShm := false
  databaseIncoming := none
  databasePrepared := none
  databasePrevious := none
  credentials := fun name => secret (match name with | .installationKey => "c" | _ => "x")
  hubState := some (joined "hub")
  movePhase := some .activating
  moveRecovery := some recovery
  moveSnapshot := none
  transfer := none
  activated := none
  activationToken := none
  activate := false
  promote := false

def manifest : HubTransferManifest Store where
  moveNonce := recovery.moveNonce
  installationId := ⟨"2"⟩
  generation := 2
  targetHostId := ⟨"13"⟩
  databaseSize := 1
  databaseSha256 := ⟨[store]⟩
  credentialsSha256 := ⟨"x"⟩

/-- The desktop has prepared what the Hub sent. -/
def target : Root Store where
  hostKey := "d"
  database := none
  databaseWal := false
  databaseShm := false
  databaseIncoming := none
  databasePrepared := some [store]
  databasePrevious := none
  credentials := fun name =>
    { active := none, incoming := none, prepared := (source.credentials name).active
      previous := none }
  hubState := some (joined "desktop")
  movePhase := none
  moveRecovery := none
  moveSnapshot := none
  transfer := some manifest
  activated := none
  activationToken := none
  activate := false
  promote := false

theorem releasing : Releasing world source recovery where
  database := by
    have hinstallation : store.projection.installation.map (·.publicKey) = some "c" := by
      decide +kernel
    have hhost : (store.host ⟨"13"⟩).isOk = true := by decide +kernel
    obtain ⟨installation, hsome, hpublic⟩ := Option.map_eq_some_iff.mp hinstallation
    cases hfound : store.host ⟨"13"⟩ with
    | error error => simp [hfound, Except.isOk, Except.toBool] at hhost
    | ok host =>
        exact ⟨store, installation, host, "c", rfl, hsome, hfound, by simp [hpublic], rfl,
          by rw [hpublic]; rfl⟩
  phase := rfl
  recovery := rfl
  noiseKey := ⟨"x", rfl, rfl⟩
  hubState := rfl
  prepared := rfl
  promote := rfl

theorem answers : Answers world recovery.moveNonce { root := target, service := some .joined } where
  database := rfl
  acceptable := ⟨manifest, rfl, rfl, rfl, rfl, fun name => by cases name <;> rfl,
    [store], store, rfl, rfl, by decide +kernel⟩
  joins := .inl rfl

theorem activated_silent (service : Option Service) :
    ¬Answers world recovery.moveNonce
      { root := (receiveActivation world recovery.moveNonce).after target, service } := by
  have hanswers := answers
  have hopened := (receiveActivation_answered hanswers).2
  rw [not_answers_iff]
  dsimp only at hopened ⊢
  exact .inl hopened

end Cut

/-! ## Whether a demotion completes -/

/-- From where the source stops after the phase `activating` it can still end as a
joined Host without a file of a Hub exactly when it has no leftover activation
mark and either has removed all of these files or none of them, and in the second
case the target can still be armed and activated. -/
theorem completes_iff {B : Type} [DecidableEq B] {world : HandoffWorld B} {root : Root B}
    {recovery : HubMoveRecovery} {target : Machine B} {handover : Handover B}
    (hreleasing : Releasing world root recovery)
    (hrun : Relation.ReflTransGen (Progress world)
      { source := { root, service := some .hub }, target } handover)
    (hstopped : handover.source.service = none) :
    Completes world handover ↔
      handover.source.root.activate = false ∧
        ((∀ file ∈ hubFiles, handover.source.root.has file = false) ∨
          handover.source.root.database.isSome = true ∧
            Answers world recovery.moveNonce handover.target) := by
  have hleaving : Leaving world recovery handover.source := by
    apply Leaving.run _ hrun
    exact .releasing hreleasing fun _ h => .inl (Option.some.inj h).symm
  constructor
  · intro hcompletes
    by_contra hall
    refine Stranded.not_completes (?_ : Stranded world recovery handover) hcompletes
    refine ⟨hleaving, by simp [hstopped], ?_⟩
    cases hactivate : handover.source.root.activate with
    | true => exact .inl rfl
    | false =>
        simp only [hactivate, true_and, not_or, not_forall, Bool.not_eq_false, not_and] at hall
        obtain ⟨⟨file, hmem, hfile⟩, hsilent⟩ := hall
        cases hleaving with
        | releasing hreleasing _ =>
            exact .inr (.inr ⟨hreleasing, hsilent hreleasing.database_isSome⟩)
        | released hreleased _ => exact .inr (.inl ⟨hreleased, file, hmem, hfile⟩)
  · rintro ⟨hactivate, hends⟩
    have context : CommandContext := { commandId := "", actor := .system, correlationId := none }
    cases hleaving with
    | releasing hreleasing _ =>
        rcases hends with hcleared | ⟨-, hanswers⟩
        · have hgone : handover.source.root.database.isSome = false :=
            hcleared .database List.mem_cons_self
          rw [hreleasing.database_isSome] at hgone
          cases hgone
        · exact completes_of_answers context hstopped hreleasing hactivate hanswers
    | released hreleased _ =>
        rcases hends with hcleared | ⟨hdatabase, -⟩
        · exact completes_of_cleared context hstopped hreleased hactivate hcleared
        · rw [hreleased.database] at hdatabase
          cases hdatabase

/-- A crash before the first removal, with a target that is not even armed. -/
theorem completes_before_removal :
    Completes Cut.world
      { source := { root := Cut.source, service := none }
        target := { root := Cut.target, service := some .joined } } :=
  (completes_iff Cut.releasing (.single (.source _ .crashed)) rfl).mpr
    ⟨rfl, .inr ⟨rfl, Cut.answers⟩⟩

/-- The target is armed and the source, while it removes its files, crashes after
the first; or the target is activated and the source crashes before. -/
theorem demotion_cut_short :
    let start : Handover Store :=
      { source := { root := Cut.source, service := some .hub }
        target := { root := Cut.target, service := some .joined } }
    let armed := armed Cut.recovery.moveNonce Cut.target
    let left := Cut.source.remove .database
    let removed : Handover Store :=
      { source := { root := left, service := none }
        target := { root := armed, service := some .joined } }
    let activated : Handover Store :=
      { source := { root := Cut.source, service := none }
        target :=
          { root := (receiveActivation Cut.world Cut.recovery.moveNonce).after Cut.target
            service := some .joined } }
    Releasing Cut.world Cut.source Cut.recovery ∧
    Relation.ReflTransGen (Progress Cut.world) start removed ∧
    left.has (.credential .installationKey) = true ∧ left.movePhase = some .activating ∧
    ¬Completes Cut.world removed ∧
    Relation.ReflTransGen (Progress Cut.world) start activated ∧
    ¬Completes Cut.world activated := by
  intro start armed left removed activated
  have hreleasing := Cut.releasing
  have harmed : Progress Cut.world start removed := by
    apply Progress.armed Cut.recovery (Cut.context "5") _ rfl (.moving rfl rfl rfl) ⟨rfl, rfl⟩ rfl
    exact .interrupted left (.tail _ (.head _))
  have hreceived : Progress Cut.world start
      { start with target := activated.target } :=
    .received Cut.recovery _ _ (.moving rfl rfl rfl) ⟨rfl, rfl⟩ (.inr rfl) .replied
  refine ⟨hreleasing, .single harmed, rfl, rfl, ?_, .tail (.single hreceived)
    (.source _ .crashed), ?_⟩
  · have hreleased : Released left := ⟨rfl, rfl, rfl, rfl⟩
    have hstranded : Stranded Cut.world Cut.recovery removed :=
      ⟨.released hreleased nofun, nofun,
        .inr (.inl ⟨hreleased, .credential .installationKey, by decide, rfl⟩)⟩
    exact hstranded.not_completes
  · have hstranded : Stranded Cut.world Cut.recovery activated :=
      ⟨.releasing hreleasing nofun, nofun, .inr (.inr ⟨hreleasing, Cut.activated_silent _⟩)⟩
    exact hstranded.not_completes

end Handover

end Mews
