import Mews.Hub.Root

/-!
# Receiving a Hub

What the target of a move does with the requests of the source: it receives the
database and the secrets beside its own files, verifies and prepares them, and
activates them once the source has armed the transfer.  Each function is a
sequence of durable steps, and an activation that was cut short is resumed by
running it again.
-/

namespace Mews

open Protocol Durable

/-- `Store::host`. -/
def Store.host (store : Store) (id : HostId) : Except StoreError Host :=
  match store.projection.hosts.find? fun row => row.host.id = id ∧ row.revoked = false with
  | some row => .ok row.host
  | none => .error (Projection.hostNotFound id)

/-- The manifest of a transfer with the secrets it hands over. -/
structure HubTransferStart (B : Type) extends HubTransferManifest B where
  installationKey : String
  hubNoiseKey : String
  credentials : String
  deriving DecidableEq

def HubTransferStart.credential {B : Type} (transfer : HubTransferStart B) : Credential → String
  | .installationKey => transfer.installationKey
  | .hubNoiseKey => transfer.hubNoiseKey
  | .auth => transfer.credentials

/-- Whether a secret is prepared or in use. -/
def CredentialFiles.held (files : CredentialFiles) : Bool :=
  files.prepared.isSome || files.active.isSome

namespace RootAction

variable {B A : Type} (world : HandoffWorld B)

/-- The files of an earlier transfer, in the order they are removed. -/
def transferFiles : List RootFile :=
  [.databaseIncoming, .databasePrepared,
    .credentialIncoming .installationKey, .credentialPrepared .installationKey,
    .credentialIncoming .hubNoiseKey, .credentialPrepared .hubNoiseKey,
    .credentialIncoming .auth, .credentialPrepared .auth,
    .transfer, .activated, .activationToken]

def receiveCredential (name : Credential) (contents : String) : RootAction B Unit :=
  write fun root => root.setCredential name fun files => { files with incoming := some contents }

def beginHubTransfer (transfer : HubTransferStart B) : RootAction B Unit := do
  check (transfer.databaseSize ≤ 1024 * 1024 * 1024) "Hub database transfer exceeds 1 GiB"
  removeFiles transferFiles
  each Credential.all fun name => receiveCredential name (transfer.credential name)
  write fun root => { root with databaseIncoming := some [] }
  write fun root => { root with transfer := some transfer.toHubTransferManifest }

def writeHubTransfer (offset : Nat) (data : List B) : RootAction B Nat := do
  check (data.length ≤ 128 * 1024) "Hub transfer chunk exceeds 128 KiB"
  let current ← load fun root => root.databaseIncoming
  check (current.length = offset) "Hub transfer offset mismatch"
  write fun root => { root with databaseIncoming := some (current ++ data) }
  return current.length + data.length

def prepareCredential (name : Credential) : RootAction B Unit := do
  let contents ← load fun root => (root.credentials name).incoming
  write fun root => root.setCredential name fun files =>
    { files with incoming := none, prepared := some contents }

/-- Everything that has been received fits the manifest and this machine. -/
def verifyTransfer [DecidableEq B] (manifest : HubTransferManifest B) (database : List B) :
    RootAction B Unit := do
  check (database.length = manifest.databaseSize ∧ ⟨database⟩ = manifest.databaseSha256)
    "Hub database transfer failed integrity verification"
  let credentials ← load fun root => (root.credentials .auth).incoming
  check (⟨credentials⟩ = manifest.credentialsSha256)
    "Hub credential transfer failed integrity verification"
  let store ← expect (world.openDatabase database) .file
  let installation ← expect store.projection.installation
    (.bail "transferred Hub database has no installation")
  check (installation.id = manifest.installationId ∧
    installation.generation = manifest.generation ∧
    installation.hubHostId = manifest.targetHostId)
    "transferred Hub database does not match the authorized handoff"
  let authority ← load fun root =>
    (root.credentials .installationKey).incoming.bind world.publicKey
  check (authority = installation.publicKey)
    "transferred installation key does not match Hub database"
  let noise ← load fun root => (root.credentials .hubNoiseKey).incoming
  require (world.isNoiseKey noise = true) .file
  require (world.isJsonObject credentials = true) .file
  let localKey ← load fun root => world.publicKey root.hostKey
  let target ← lift ((store.host manifest.targetHostId).mapError .store)
  check (target.publicKey = localKey) "transferred Hub targets a different physical Host"

def commitHubTransfer [DecidableEq B] : RootAction B Unit := do
  let manifest ← load fun root => root.transfer
  let database ← load fun root => root.databaseIncoming
  verifyTransfer world manifest database
  each Credential.all prepareCredential
  write fun root => { root with databaseIncoming := none, databasePrepared := some database }

def armHubTransfer (moveNonce : MoveNonce) : RootAction B Unit := do
  let manifest ← load fun root => root.transfer
  check (manifest.moveNonce = moveNonce)
    "Hub activation nonce does not match prepared transfer"
  let token ← reads fun root => root.activationToken
  if token = none then
    write fun root => { root with activationToken := some moveNonce }

/-- Whether a Store is the database a transfer was authorized for. -/
def storeMatches (store : Store) (manifest : HubTransferManifest B) : Bool :=
  match store.projection.installation with
  | some installation =>
      installation.id = manifest.installationId ∧
        installation.generation = manifest.generation ∧
        installation.hubHostId = manifest.targetHostId
  | none => false

def activeMatches (manifest : HubTransferManifest B) : RootAction B Bool :=
  reads fun root => root.database.any fun store => storeMatches store manifest

def preparedMatches (manifest : HubTransferManifest B) : RootAction B Bool := do
  match ← reads fun root => root.databasePrepared with
  | none => return false
  | some database =>
      let store ← expect (world.openDatabase database) .file
      return storeMatches store manifest

/-- Puts a prepared secret in use; one that it replaces is retained. -/
def installCredential (name : Credential) : RootAction B Unit := do
  let files ← reads fun root => root.credentials name
  match files.prepared with
  | some prepared =>
      match files.active with
      | none => install prepared
      | some active =>
          if prepared = active then
            removeFile (.credentialPrepared name)
          else
            write fun root => root.setCredential name fun files =>
              { files with active := none, previous := some active }
            install prepared
  | none =>
      check (files.active.isSome = true)
        ("prepared Hub credential is missing: " ++ name.path ++ ".prepared")
where
  install (prepared : String) : RootAction B Unit :=
    write fun root => root.setCredential name fun files =>
      { files with active := some prepared, prepared := none }

def finishActivation : RootAction B Unit :=
  removeFiles [.activate, .activationToken, .transfer]

/-- Puts the prepared database in place of the active one, unless it is there. -/
def installDatabase (manifest : HubTransferManifest B) : RootAction B Unit := do
  if ← activeMatches manifest then
    if (← reads fun root => root.databasePrepared).isSome then
      check ((← preparedMatches world manifest) = true)
        "prepared Hub database does not match the authorized handoff"
      removeFile .databasePrepared
  else
    check ((← preparedMatches world manifest) = true)
      "prepared Hub database is missing or does not match the authorized handoff"
    let active ← reads fun root => root.database
    if active.isSome then
      write fun root => { root with database := none, databasePrevious := root.database }
    let prepared ← load fun root => root.databasePrepared.bind world.openDatabase
    write fun root => { root with database := some prepared, databasePrepared := none }

/-- An activation that has left no receipt yet. -/
def activatePrepared (manifest : HubTransferManifest B) : RootAction B Unit := do
  let token ← load fun root => root.activationToken
  check (token = manifest.moveNonce)
    "prepared Hub has no valid source-issued activation token"
  write fun root => { root with activate := true }
  each Credential.all installCredential
  installDatabase world manifest
  write fun root => { root with promote := true }
  write fun root => { root with activated := some manifest }
  finishActivation

def activateHubTransfer [DecidableEq B] : RootAction B Unit := do
  match ← reads fun root => root.transfer with
  | none =>
      let receipt ← load fun root => root.activated
      check ((← activeMatches receipt) = true)
        "completed Hub activation receipt does not match the active database"
  | some manifest =>
      match ← reads fun root => root.activated with
      | some receipt =>
          check (receipt = manifest ∧ (← activeMatches manifest) = true)
            "completed Hub activation receipt does not match the prepared transfer"
          finishActivation
      | none => activatePrepared world manifest

/-! ## What an activation needs -/

/-- The transfer can be activated: it is armed, its secrets are prepared or in
use, and its database is the authorized one. -/
structure Ready (root : Root B) (manifest : HubTransferManifest B) : Prop where
  transfer : root.transfer = some manifest
  activated : root.activated = none
  token : root.activationToken = some manifest.moveNonce
  credentials : ∀ name, (root.credentials name).held = true
  database : ∃ prepared store, root.databasePrepared = some prepared ∧
    world.openDatabase prepared = some store ∧ storeMatches store manifest = true

/-- What an activation leaves as it is until the database is in place. -/
structure Pending (root reached : Root B) : Prop where
  hostKey : reached.hostKey = root.hostKey
  database : reached.database = root.database
  prepared : reached.databasePrepared = root.databasePrepared
  credentials : ∀ name, (reached.credentials name).held = (root.credentials name).held
  hubState : reached.hubState = root.hubState
  movePhase : reached.movePhase = root.movePhase
  moveRecovery : reached.moveRecovery = root.moveRecovery
  transfer : reached.transfer = root.transfer
  activated : reached.activated = root.activated
  token : reached.activationToken = root.activationToken
  activate : root.activate = true → reached.activate = true
  promote : reached.promote = root.promote

theorem Pending.refl (root : Root B) : Pending root root := by
  constructor <;> first | exact fun h => h | exact fun _ => rfl | rfl

theorem Pending.trans {first second third : Root B} (hfirst : Pending first second)
    (hsecond : Pending second third) : Pending first third where
  hostKey := hsecond.hostKey.trans hfirst.hostKey
  database := hsecond.database.trans hfirst.database
  prepared := hsecond.prepared.trans hfirst.prepared
  credentials := fun name => (hsecond.credentials name).trans (hfirst.credentials name)
  hubState := hsecond.hubState.trans hfirst.hubState
  movePhase := hsecond.movePhase.trans hfirst.movePhase
  moveRecovery := hsecond.moveRecovery.trans hfirst.moveRecovery
  transfer := hsecond.transfer.trans hfirst.transfer
  activated := hsecond.activated.trans hfirst.activated
  token := hsecond.token.trans hfirst.token
  activate := fun h => hsecond.activate (hfirst.activate h)
  promote := hsecond.promote.trans hfirst.promote

theorem pending_setCredential {root : Root B} (name : Credential)
    (change : CredentialFiles → CredentialFiles)
    (hheld : (change (root.credentials name)).held = (root.credentials name).held) :
    Pending root (root.setCredential name change) where
  hostKey := rfl
  database := rfl
  prepared := rfl
  credentials := by
    intro other
    rw [Root.credentials_setCredential]
    split
    · rename_i heq
      rw [heq, hheld]
    · rfl
  hubState := rfl
  movePhase := rfl
  moveRecovery := rfl
  transfer := rfl
  activated := rfl
  token := rfl
  activate := fun h => h
  promote := rfl

section Activation

variable {world : HandoffWorld B} {root : Root B}

/-- Installing a secret moves it; it fails only where there is none. -/
theorem holds_installCredential (name : Credential) :
    holds (installCredential name) root (Pending root)
      (fun _ reached => Pending root reached ∧ (root.credentials name).held = true)
      fun _ reached => Pending root reached ∧ (root.credentials name).held = false := by
  cases hprepared : (root.credentials name).prepared with
  | none =>
      simp only [installCredential, hprepared, holds_bind, holds_reads, holds_check]
      constructor
      · intro hactive
        exact ⟨.refl root, by simp [CredentialFiles.held, hactive]⟩
      · intro hactive
        exact ⟨.refl root, by simpa [CredentialFiles.held, hprepared] using hactive⟩
  | some prepared =>
      have hheld : (root.credentials name).held = true := by simp [CredentialFiles.held, hprepared]
      cases hactive : (root.credentials name).active with
      | none =>
          simp only [installCredential, installCredential.install, hprepared, hactive, holds_bind,
            holds_reads, holds_write]
          have hpending : Pending root _ := pending_setCredential name
            (fun files => { files with active := some prepared, prepared := none })
            (by simp [CredentialFiles.held, hprepared])
          exact ⟨hpending, hpending, hheld⟩
      | some active =>
          simp only [installCredential, installCredential.install, hprepared, hactive, holds_bind,
            holds_reads, holds_write, holds_ite, holds_removeFile]
          constructor
          · intro _
            have hpending : Pending root _ := pending_setCredential name
              (fun files => { files with prepared := none })
              (by simp [CredentialFiles.held, hprepared, hactive])
            exact ⟨hpending, hpending, hheld⟩
          · intro _
            have hretained : Pending root _ := pending_setCredential name
              (fun files => { files with active := none, previous := some active })
              (by simp [CredentialFiles.held, hprepared])
            have hinstalled := hretained.trans <| pending_setCredential name
              (fun files => { files with active := some prepared, prepared := none })
              (by simp [CredentialFiles.held, Root.credentials_setCredential, hprepared])
            exact ⟨hretained, hinstalled, hinstalled, hheld⟩

theorem holds_installCredentials :
    holds (each Credential.all installCredential) root (Pending root)
      (fun _ reached => Pending root reached ∧
        ∀ name, (root.credentials name).held = true)
      fun _ reached => Pending root reached ∧ ∃ name, (root.credentials name).held = false := by
  refine holds_mono (holds_each (fun rest reached => Pending root reached ∧
    ∀ name, name ∉ rest → (root.credentials name).held = true) ?_ ?_) (fun _ h => h) ?_
    fun _ _ h => h
  · refine ⟨.refl root, ?_⟩
    intro name hname
    exact absurd (by cases name <;> decide) hname
  · rintro name rest reached ⟨hpending, hheld⟩
    refine holds_mono (holds_installCredential name) (fun _ h => hpending.trans h) ?_ ?_
    · rintro _ next ⟨hnext, hname⟩
      refine ⟨hpending.trans hnext, ?_⟩
      intro other hother
      by_cases heq : other = name
      · rw [heq, ← hpending.credentials]
        exact hname
      · exact hheld other (by simp [heq, hother])
    · rintro _ next ⟨hnext, hname⟩
      exact ⟨hpending.trans hnext, name, by rw [← hpending.credentials]; exact hname⟩
  · rintro _ reached ⟨hpending, hheld⟩
    exact ⟨hpending, fun name => hheld name List.not_mem_nil⟩

/-- Without a database of its own the target takes the prepared one, if it is
the authorized one. -/
theorem holds_installDatabase {manifest : HubTransferManifest B} (hdatabase : root.database = none) :
    holds (installDatabase world manifest) root
      (fun reached => reached.database.isSome = true ∧
        ∃ prepared store, root.databasePrepared = some prepared ∧
          world.openDatabase prepared = some store ∧ storeMatches store manifest = true)
      (fun _ reached => reached.database.isSome = true ∧
        ∃ prepared store, root.databasePrepared = some prepared ∧
          world.openDatabase prepared = some store ∧ storeMatches store manifest = true)
      fun _ reached => reached = root ∧
        ¬∃ prepared store, root.databasePrepared = some prepared ∧
          world.openDatabase prepared = some store ∧ storeMatches store manifest = true := by
  cases hprepared : root.databasePrepared with
  | none =>
      simp only [installDatabase, activeMatches, preparedMatches, holds_bind, holds_reads,
        hdatabase, hprepared, Option.any_none, Bool.false_eq_true, if_false, holds_pure,
        holds_check]
      exact ⟨fun h => h.elim, fun _ => ⟨trivial, by simp⟩⟩
  | some prepared =>
      simp only [installDatabase, activeMatches, preparedMatches, holds_bind, holds_reads,
        hdatabase, hprepared, Option.any_none, Bool.false_eq_true, if_false, holds_pure,
        holds_check, holds_expect, Option.isSome_none, holds_load, holds_write, Option.bind_some]
      refine ⟨?_, ?_⟩
      · intro store hopens
        constructor
        · intro hmatches
          refine ⟨?_, ?_⟩
          · intro found hfound
            exact ⟨⟨rfl, prepared, store, rfl, hopens, hmatches⟩,
              rfl, prepared, store, rfl, hopens, hmatches⟩
          · intro hnone
            rw [hopens] at hnone
            cases hnone
        · rintro hmatches
          refine ⟨trivial, ?_⟩
          rintro ⟨_, store', hsome, hopens', hmatches'⟩
          cases hsome
          rw [hopens, Option.some.injEq] at hopens'
          rw [hopens'] at hmatches
          exact hmatches hmatches'
      · intro hnone
        refine ⟨trivial, ?_⟩
        rintro ⟨_, store', hsome, hopens', -⟩
        cases hsome
        rw [hnone] at hopens'
        cases hopens'

theorem holds_finishActivation (hdatabase : root.database.isSome = true) :
    holds finishActivation root (fun reached => reached.database.isSome = true)
      (fun _ reached => reached.database.isSome = true) fun _ _ => False := by
  simpa [finishActivation, removeFiles, each, Root.remove] using hdatabase

theorem holds_activatePrepared {manifest : HubTransferManifest B} (hdatabase : root.database = none)
    (htransfer : root.transfer = some manifest) (hactivated : root.activated = none) :
    holds (activatePrepared world manifest) root
      (fun reached => Pending root reached ∨
        reached.database.isSome = true ∧ Ready world root manifest)
      (fun _ reached => reached.database.isSome = true ∧ Ready world root manifest)
      fun _ reached => Pending root reached ∧ ¬Ready world root manifest := by
  simp only [activatePrepared, holds_bind, holds_load, holds_check, holds_write]
  refine ⟨?_, ?_⟩
  · intro token htoken
    constructor
    · rintro rfl
      have hmarked : Pending root { root with activate := true } := by
        constructor <;> intros <;> rfl
      refine ⟨.inl hmarked, ?_⟩
      refine holds_mono holds_installCredentials (fun _ h => .inl (hmarked.trans h)) ?_ ?_
      · rintro _ reached ⟨hpending, hheld⟩
        have hreached := hmarked.trans hpending
        have hready : ∀ prepared store, reached.databasePrepared = some prepared →
            world.openDatabase prepared = some store → storeMatches store manifest = true →
            Ready world root manifest := by
          intro prepared store hprepared hopens hmatches
          rw [hreached.prepared] at hprepared
          exact ⟨htransfer, hactivated, htoken, hheld, prepared, store, hprepared, hopens, hmatches⟩
        refine holds_mono (holds_installDatabase (hreached.database.trans hdatabase)) ?_ ?_ ?_
        · rintro installed ⟨hinstalled, prepared, store, hprepared, hopens, hmatches⟩
          exact .inr ⟨hinstalled, hready prepared store hprepared hopens hmatches⟩
        · rintro _ installed ⟨hinstalled, prepared, store, hprepared, hopens, hmatches⟩
          have hready := hready prepared store hprepared hopens hmatches
          refine ⟨.inr ⟨hinstalled, hready⟩, .inr ⟨hinstalled, hready⟩, ?_⟩
          exact holds_mono (holds_finishActivation hinstalled) (fun _ h => .inr ⟨h, hready⟩)
            (fun _ _ h => ⟨h, hready⟩) fun _ _ h => h.elim
        · rintro _ _ ⟨rfl, hprepared⟩
          rw [hreached.prepared] at hprepared
          exact ⟨hreached, fun hready => hprepared hready.database⟩
      · rintro _ reached ⟨hpending, name, hname⟩
        refine ⟨hmarked.trans hpending, fun hready => ?_⟩
        rw [hready.credentials name] at hname
        cases hname
    · intro hne
      refine ⟨.refl root, fun hready => ?_⟩
      rw [hready.token, Option.some.injEq] at htoken
      exact hne htoken.symm
  · intro hnone
    refine ⟨.refl root, fun hready => ?_⟩
    rw [hready.token] at hnone
    cases hnone

theorem Ready.manifest_eq {manifest other : HubTransferManifest B}
    (hready : Ready world root other) (htransfer : root.transfer = some manifest) :
    other = manifest :=
  Option.some.inj (hready.transfer.symm.trans htransfer)

/-- An activation of a target without a database changes nothing that another
one depends on until the database is in place, and gets there exactly when the
transfer is ready. -/
theorem holds_activateHubTransfer [DecidableEq B] (hdatabase : root.database = none) :
    holds (activateHubTransfer world) root
      (fun reached => Pending root reached ∨
        reached.database.isSome = true ∧ ∃ manifest, Ready world root manifest)
      (fun _ reached => reached.database.isSome = true ∧ ∃ manifest, Ready world root manifest)
      fun _ reached => Pending root reached ∧ ¬∃ manifest, Ready world root manifest := by
  cases htransfer : root.transfer with
  | none =>
      have hunready : ¬∃ manifest, Ready world root manifest := by
        rintro ⟨manifest, hready⟩
        cases htransfer.symm.trans hready.transfer
      simp [activateHubTransfer, activeMatches, htransfer, hdatabase, hunready, Pending.refl]
  | some manifest =>
      cases hactivated : root.activated with
      | some receipt =>
          have hunready : ¬∃ manifest, Ready world root manifest := by
            rintro ⟨other, hready⟩
            cases hactivated.symm.trans hready.activated
          simp [activateHubTransfer, activeMatches, htransfer, hactivated, hdatabase, hunready,
            Pending.refl]
      | none =>
          simp only [activateHubTransfer, htransfer, hactivated, holds_bind, holds_reads]
          refine holds_mono (holds_activatePrepared hdatabase htransfer hactivated) ?_ ?_ ?_
          · exact fun reached h => h.imp_right fun h => ⟨h.1, manifest, h.2⟩
          · exact fun _ reached h => ⟨h.1, manifest, h.2⟩
          · rintro _ reached ⟨hpending, hunready⟩
            refine ⟨hpending, ?_⟩
            rintro ⟨other, hready⟩
            exact hunready (hready.manifest_eq htransfer ▸ hready)

theorem Pending.ready {manifest : HubTransferManifest B} {reached : Root B}
    (hpending : Pending root reached) (hready : Ready world root manifest) :
    Ready world reached manifest where
  transfer := hpending.transfer.trans hready.transfer
  activated := hpending.activated.trans hready.activated
  token := hpending.token.trans hready.token
  credentials := fun name => (hpending.credentials name).trans (hready.credentials name)
  database := by
    rw [hpending.prepared]
    exact hready.database

/-- `Ready` is kept in both directions. -/
theorem Pending.ready_iff {manifest : HubTransferManifest B} {reached : Root B}
    (hpending : Pending root reached) :
    Ready world reached manifest ↔ Ready world root manifest := by
  constructor
  · intro hready
    constructor
    · rw [← hpending.transfer, hready.transfer]
    · rw [← hpending.activated, hready.activated]
    · rw [← hpending.token, hready.token]
    · exact fun name => (hpending.credentials name).symm.trans (hready.credentials name)
    · rw [← hpending.prepared]
      exact hready.database
  · exact hpending.ready

/-- Arming keeps a token that is there. -/
def armed (moveNonce : MoveNonce) (root : Root B) : Root B :=
  { root with activationToken := root.activationToken <|> some moveNonce }

theorem armed_armed (moveNonce : MoveNonce) (root : Root B) :
    armed moveNonce (armed moveNonce root) = armed moveNonce root := by
  cases htoken : root.activationToken <;> simp [armed, htoken]

theorem holds_armHubTransfer (moveNonce : MoveNonce) :
    holds (armHubTransfer moveNonce) root (fun reached => reached = armed moveNonce root)
      (fun _ reached => reached = armed moveNonce root ∧
        ∃ manifest, root.transfer = some manifest ∧ manifest.moveNonce = moveNonce)
      fun _ reached => reached = root ∧
        ¬∃ manifest, root.transfer = some manifest ∧ manifest.moveNonce = moveNonce := by
  cases htransfer : root.transfer with
  | none => simp [armHubTransfer, htransfer]
  | some manifest =>
      by_cases hnonce : manifest.moveNonce = moveNonce
      · cases htoken : root.activationToken with
        | none => simp [armHubTransfer, htransfer, hnonce, htoken, armed]
        | some token =>
            have harmed : armed moveNonce root = root := by
              cases root
              simp_all [armed]
            simp [armHubTransfer, htransfer, hnonce, htoken, harmed]
      · simp [armHubTransfer, htransfer, hnonce]

/-- Whether the target, asked to arm and to activate a move, can do both. -/
def Acceptable (world : HandoffWorld B) (moveNonce : MoveNonce) (root : Root B) : Prop :=
  ∃ manifest, manifest.moveNonce = moveNonce ∧ Ready world (armed moveNonce root) manifest

theorem acceptable_armed {moveNonce : MoveNonce} :
    Acceptable world moveNonce (armed moveNonce root) ↔ Acceptable world moveNonce root := by
  rw [Acceptable, armed_armed, Acceptable]

theorem Pending.armed {reached : Root B} (hpending : Pending root reached) (moveNonce : MoveNonce) :
    Pending (RootAction.armed moveNonce root) (RootAction.armed moveNonce reached) :=
  { hpending with
    token := by simp [RootAction.armed, hpending.token] }

theorem Pending.acceptable_iff {reached : Root B} {moveNonce : MoveNonce}
    (hpending : Pending root reached) :
    Acceptable world moveNonce reached ↔ Acceptable world moveNonce root := by
  simp only [Acceptable, (hpending.armed moveNonce).ready_iff]

end Activation

end RootAction

end Mews
