import Mews.Hub.Transfer

/-!
# Starting a machine

What a machine does with its root directory when its daemon starts: it opens the
database as Hub, resumes a handoff that it was making, or serves as a joined
Host.  A demoted Hub removes its files one after the other.
-/

namespace Mews

open Protocol Durable

/-- `Store::hosts`. -/
def Store.hosts (store : Store) : List Host :=
  ((store.projection.hosts.filter fun row => !row.revoked).map (·.host)).mergeSort
    fun host other => decide (host.name ≤ other.name)

/-- What a machine runs as. -/
inductive Service where
  | hub
  | recovering (recovery : HubMoveRecovery)
  | joined
  deriving DecidableEq, Repr

namespace RootAction

variable {B A : Type} [DecidableEq B] (world : HandoffWorld B)

/-- A command of the Store in one durable step. -/
def command (action : Store.Action A) : RootAction B A := do
  let store ← load fun root => root.database
  let result := action store
  write fun root => { root with database := some result.2 }
  lift (result.1.mapError .store)

/-- `Store::open_hub` creates a database where there is none. -/
def openDatabase : RootAction B Unit := do
  if (← reads fun root => root.database).isNone then
    write fun root => { root with database := some Store.empty }

def database : RootAction B Store := load fun root => root.database

def installation : RootAction B Installation := do
  let store ← database
  expect store.projection.installation (.bail "MEWS is not set up; run `mews setup`")

def loadKey (view : Root B → Option String) : RootAction B String :=
  load fun root => (view root).bind world.publicKey

def loadNoiseKey : RootAction B Unit := do
  let key ← load fun root => (root.credentials .hubNoiseKey).active
  require (world.isNoiseKey key = true) .file

/-- A move that was cut short while it was prepared is taken back. -/
def recoverPreparingHubMove (context : CommandContext) : RootAction B Unit := do
  if (← reads fun root => root.movePhase) = some .preparing then
    let store ← database
    let installation ← expect store.projection.installation
      (.bail "Hub move journal exists without an installation")
    let localKey ← loadKey world fun root => some root.hostKey
    let local' ← expect (store.hosts.find? fun host => host.publicKey = localKey)
      (.bail "local Host identity is absent from Hub database")
    if installation.hubHostId ≠ local'.id then
      let _ ← command (Store.moveHub world.store context installation.hubHostId local'.id)
    removeFiles [.hubState, .moveRecovery, .movePhase]

def validateInstallationAuthority : RootAction B Unit := do
  match (← database).projection.installation with
  | none => return
  | some installation =>
      check (installation.publicKey ≠ "")
        "installation authority is missing; create fresh MEWS state or repair it explicitly"
      let authority ← loadKey world fun root => (root.credentials .installationKey).active
      check (authority = installation.publicKey)
        "secrets/installation.key does not match the authority recorded by Hub"

def validateHubAssignment : RootAction B Unit := do
  let store ← database
  match store.projection.installation with
  | none => return
  | some installation =>
      let localKey ← loadKey world fun root => some root.hostKey
      let assigned ← lift ((store.host installation.hubHostId).mapError .store)
      check (assigned.publicKey = localKey)
        s!"this Host is not the Hub for generation {installation.generation}"

/-- `Mews::open`. -/
def openHub (context : CommandContext) : RootAction B Unit := do
  openDatabase
  recoverPreparingHubMove world context
  loadNoiseKey world
  validateInstallationAuthority world
  validateHubAssignment world
  let _ ← command (Store.exec world.store .recoverInterruptedWork)

/-- `Mews::open_handoff`. -/
def openHandoff : RootAction B Unit := do
  openDatabase
  loadNoiseKey world
  validateInstallationAuthority world

/-- A machine that has just been promoted is no longer a joined Host. -/
def settlePromotion : RootAction B Unit := do
  if (← reads fun root => root.promote) = true then
    if (← reads fun root => root.hubState).isSome then
      removeFile .hubState
    removeFile .promote

/-- `server::serve` up to the service it settles on. -/
def serve (context : CommandContext) : RootAction B Service := do
  if (← reads fun root => root.movePhase) = some .activating then
    openHandoff world
    settlePromotion
    let recovery ← load fun root => root.moveRecovery
    let _ ← installation
    let _ ← lift (((← database).host recovery.targetHostId).mapError .store)
    return .recovering recovery
  else
    openHub world context
    settlePromotion
    let _ ← installation
    return .hub

/-- `serve_joined_host` up to the service it settles on. -/
def serveJoinedHost (context : CommandContext) : RootAction B Service := do
  if (← reads fun root => root.activate) = true then
    activateHubTransfer world
  if (← reads fun root => root.promote) = true then
    serve world context
  else
    let _ ← load fun root => root.hubState
    return .joined

/-- `serve_machine`. -/
def serveMachine (context : CommandContext) : RootAction B Service := do
  if (← reads fun root => root.database).isSome then
    serve world context
  else
    serveJoinedHost world context

/-- The files of a Hub, in the order its demotion removes them. -/
def hubFiles : List RootFile :=
  [.database, .databaseWal, .databaseShm, .credential .installationKey,
    .credential .hubNoiseKey, .credential .auth, .movePhase, .moveRecovery]

def demoteHubFiles : RootAction B Unit := removeFiles hubFiles

end RootAction

/-! ## Serving with a database -/

namespace RootAction

variable {B A : Type} (world : HandoffWorld B)

def Opened (root : Root B) : Prop := root.database.isSome = true

theorem keeps_opened_command (action : Store.Action A) : Keeps Opened (command (B := B) action) := by
  apply keeps_bind (keeps_load _)
  intro store
  refine keeps_bind (keeps_write ?_) fun _ => keeps_lift _
  intro _ _
  rfl

theorem keeps_opened_removeFile {file : RootFile} (hne : file ≠ .database) :
    Keeps Opened (removeFile (B := B) file) := by
  apply keeps_write
  intro root hopened
  rwa [Opened, Root.database_remove hne]

theorem keeps_opened_removeFiles {files : List RootFile} (hmem : RootFile.database ∉ files) :
    Keeps Opened (removeFiles (B := B) files) :=
  keeps_each fun _ hfile => keeps_opened_removeFile fun heq => hmem (heq ▸ hfile)

theorem keeps_opened_loadNoiseKey : Keeps Opened (loadNoiseKey world) :=
  keeps_bind (keeps_load _) fun _ => keeps_require _ _

theorem keeps_opened_installation : Keeps Opened (installation (B := B)) :=
  keeps_bind (keeps_load _) fun _ => keeps_expect _ _

theorem keeps_opened_settlePromotion : Keeps Opened (settlePromotion (B := B)) := by
  apply keeps_bind (keeps_reads _)
  intro promote
  apply keeps_ite
  · intro _
    apply keeps_bind (keeps_reads _)
    intro hubState
    apply keeps_ite
    · intro _
      exact keeps_bind (keeps_opened_removeFile (by decide)) fun _ =>
        keeps_opened_removeFile (by decide)
    · intro _
      exact keeps_opened_removeFile (by decide)
  · intro _
    exact keeps_pure ()

theorem keeps_opened_recoverPreparingHubMove (context : CommandContext) :
    Keeps Opened (recoverPreparingHubMove world context) := by
  apply keeps_bind (keeps_reads _)
  intro phase
  apply keeps_ite
  · intro _
    apply keeps_bind (keeps_load _)
    intro store
    apply keeps_bind (keeps_expect _ _)
    intro installation
    apply keeps_bind (keeps_load _)
    intro localKey
    apply keeps_bind (keeps_expect _ _)
    intro local'
    apply keeps_ite
    · intro _
      exact keeps_bind (keeps_opened_command _) fun _ => keeps_opened_removeFiles (by decide)
    · intro _
      exact keeps_opened_removeFiles (by decide)
  · intro _
    exact keeps_pure ()

theorem keeps_opened_validateInstallationAuthority :
    Keeps Opened (validateInstallationAuthority world) := by
  apply keeps_bind (keeps_load _)
  intro store
  split
  · exact keeps_pure ()
  · exact keeps_bind (keeps_check _ _) fun _ => keeps_bind (keeps_load _) fun _ => keeps_check _ _

theorem keeps_opened_validateHubAssignment : Keeps Opened (validateHubAssignment world) := by
  apply keeps_bind (keeps_load _)
  intro store
  split
  · exact keeps_pure ()
  · exact keeps_bind (keeps_load _) fun _ => keeps_bind (keeps_lift _) fun _ => keeps_check _ _

variable {world}

/-- From its first step on, a machine that opens its database has one. -/
theorem holds_openDatabase {root : Root B} {next : Unit → RootAction B A}
    (hnext : ∀ opened, Keeps Opened (next opened)) :
    holds (openDatabase >>= next) root Opened (fun _ reached => Opened reached) fun _ reached =>
      Opened reached := by
  have hopens : holds openDatabase root Opened (fun _ reached => Opened reached) fun _ reached =>
      Opened reached := by
    cases hdatabase : root.database <;> simp [openDatabase, hdatabase, Opened]
  rw [holds_bind]
  exact holds_mono hopens (fun _ h => h) (fun opened reached h => hnext opened reached h)
    fun _ _ h => h

theorem holds_openHandoff {root : Root B} {next : Unit → RootAction B A}
    (hnext : ∀ opened, Keeps Opened (next opened)) :
    holds (openHandoff world >>= next) root Opened (fun _ reached => Opened reached)
      fun _ reached => Opened reached := by
  have hopens : holds (openHandoff world) root Opened (fun _ reached => Opened reached)
      fun _ reached => Opened reached :=
    holds_openDatabase fun _ =>
      keeps_bind (keeps_opened_loadNoiseKey world) fun _ =>
        keeps_opened_validateInstallationAuthority world
  rw [holds_bind]
  exact holds_mono hopens (fun _ h => h) (fun opened reached h => hnext opened reached h)
    fun _ _ h => h

theorem holds_openHub {root : Root B} {context : CommandContext} {next : Unit → RootAction B A}
    (hnext : ∀ opened, Keeps Opened (next opened)) :
    holds (openHub world context >>= next) root Opened (fun _ reached => Opened reached)
      fun _ reached => Opened reached := by
  have hopens : holds (openHub world context) root Opened (fun _ reached => Opened reached)
      fun _ reached => Opened reached :=
    holds_openDatabase fun _ =>
      keeps_bind (keeps_opened_recoverPreparingHubMove world context) fun _ =>
        keeps_bind (keeps_opened_loadNoiseKey world) fun _ =>
          keeps_bind (keeps_opened_validateInstallationAuthority world) fun _ =>
            keeps_bind (keeps_opened_validateHubAssignment world) fun _ =>
              keeps_bind (keeps_opened_command (Store.exec world.store .recoverInterruptedWork))
                fun _ => keeps_pure ()
  rw [holds_bind]
  exact holds_mono hopens (fun _ h => h) (fun opened reached h => hnext opened reached h)
    fun _ _ h => h

theorem holds_serve {root : Root B} (context : CommandContext) :
    holds (serve world context) root Opened (fun _ reached => Opened reached) fun _ reached =>
      Opened reached := by
  rw [serve, holds_bind, holds_reads, holds_ite]
  constructor
  · intro _
    apply holds_openHandoff
    intro _
    exact keeps_bind keeps_opened_settlePromotion fun _ => keeps_bind (keeps_load _) fun _ =>
      keeps_bind keeps_opened_installation fun _ => keeps_bind (keeps_load _) fun _ =>
        keeps_bind (keeps_lift _) fun _ => keeps_pure _
  · intro _
    apply holds_openHub
    intro _
    exact keeps_bind keeps_opened_settlePromotion fun _ =>
      keeps_bind keeps_opened_installation fun _ => keeps_pure _

end RootAction

end Mews
