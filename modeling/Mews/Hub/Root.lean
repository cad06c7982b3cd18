import Mews.Core.Durable
import Mews.Store.Hub

/-!
# The root directory of a machine

A machine keeps its part in a Hub move in the files of one directory: the
database and the secrets of the Hub, the state of a joined Host, the phase of a
move it makes as the source, and the prepared transfer of a move it receives as
the target.  Every operation is a sequence of durable steps on that directory.
-/

namespace Mews

open Protocol

/-- The nonce of a move; `Uuid::now_v7` never repeats one. -/
structure MoveNonce where
  value : Nat
  deriving DecidableEq, Repr

/-- A digest stands for what it is the digest of. -/
structure Sha256 (A : Type) where
  digested : A
  deriving DecidableEq, Repr

/-- What the moves use of SQLite and of the key formats.  Opening a backup gives
the Store that was backed up. -/
structure HandoffWorld (B : Type) where
  store : World
  image : Store → List B
  openDatabase : List B → Option Store
  openDatabase_image : ∀ store, openDatabase (image store) = some store
  /-- `HostIdentity::load` and its public key. -/
  publicKey : String → Option String
  /-- Whether `NoiseIdentity::load` accepts the file. -/
  isNoiseKey : String → Bool
  isJsonObject : String → Bool

inductive HubError where
  | store (error : StoreError)
  | bail (message : String)
  | file
  deriving DecidableEq

/-- The secrets that a move hands over. -/
inductive Credential where
  | installationKey
  | hubNoiseKey
  | auth
  deriving DecidableEq, Repr

def Credential.all : List Credential := [.installationKey, .hubNoiseKey, .auth]

/-- A secret in use, received, prepared, and the one it has replaced. -/
structure CredentialFiles where
  active : Option String
  incoming : Option String
  prepared : Option String
  previous : Option String
  deriving DecidableEq, Repr

inductive MovePhase where
  | preparing
  | activating
  deriving DecidableEq, Repr

structure HubMoveRecovery where
  targetHostId : HostId
  moveNonce : MoveNonce
  deriving DecidableEq, Repr

structure HubTransferManifest (B : Type) where
  moveNonce : MoveNonce
  installationId : InstallationId
  generation : Nat
  targetHostId : HostId
  databaseSize : Nat
  databaseSha256 : Sha256 (List B)
  credentialsSha256 : Sha256 String
  deriving DecidableEq

/-- The state of a joined Host: the Host it is and where to find its Hub. -/
structure JoinedHostState where
  host : Host
  relayUrls : List String
  deriving DecidableEq, Repr

structure Root (B : Type) where
  hostKey : String
  database : Option Store
  databaseWal : Bool
  databaseShm : Bool
  databaseIncoming : Option (List B)
  databasePrepared : Option (List B)
  databasePrevious : Option Store
  credentials : Credential → CredentialFiles
  hubState : Option JoinedHostState
  movePhase : Option MovePhase
  moveRecovery : Option HubMoveRecovery
  moveSnapshot : Option (List B)
  transfer : Option (HubTransferManifest B)
  activated : Option (HubTransferManifest B)
  activationToken : Option MoveNonce
  activate : Bool
  promote : Bool

/-- The files by the names that the removals list. -/
inductive RootFile where
  | database
  | databaseWal
  | databaseShm
  | databaseIncoming
  | databasePrepared
  | credential (name : Credential)
  | credentialIncoming (name : Credential)
  | credentialPrepared (name : Credential)
  | hubState
  | movePhase
  | moveRecovery
  | moveSnapshot
  | transfer
  | activated
  | activationToken
  | activate
  | promote
  deriving DecidableEq, Repr

def Credential.path : Credential → String
  | .installationKey => "secrets/installation.key"
  | .hubNoiseKey => "secrets/hub-noise.key"
  | .auth => "auth.json"

def RootFile.path : RootFile → String
  | .database => "mews.db"
  | .databaseWal => "mews.db-wal"
  | .databaseShm => "mews.db-shm"
  | .databaseIncoming => "mews.db.incoming"
  | .databasePrepared => "mews.db.prepared"
  | .credential name => name.path
  | .credentialIncoming name => name.path ++ ".incoming"
  | .credentialPrepared name => name.path ++ ".prepared"
  | .hubState => "hub.json"
  | .movePhase => "hub-move.phase"
  | .moveRecovery => "hub-move-recovery.json"
  | .moveSnapshot => "hub-move.snapshot"
  | .transfer => "hub-transfer.json"
  | .activated => "hub-transfer.activated.json"
  | .activationToken => "hub-activation-token"
  | .activate => "hub-activate"
  | .promote => "hub-promote"

namespace Root

variable {B : Type} (root : Root B)

def setCredential (name : Credential) (change : CredentialFiles → CredentialFiles) : Root B :=
  { root with credentials := fun other =>
      if other = name then change (root.credentials other) else root.credentials other }

def has : RootFile → Bool
  | .database => root.database.isSome
  | .databaseWal => root.databaseWal
  | .databaseShm => root.databaseShm
  | .databaseIncoming => root.databaseIncoming.isSome
  | .databasePrepared => root.databasePrepared.isSome
  | .credential name => (root.credentials name).active.isSome
  | .credentialIncoming name => (root.credentials name).incoming.isSome
  | .credentialPrepared name => (root.credentials name).prepared.isSome
  | .hubState => root.hubState.isSome
  | .movePhase => root.movePhase.isSome
  | .moveRecovery => root.moveRecovery.isSome
  | .moveSnapshot => root.moveSnapshot.isSome
  | .transfer => root.transfer.isSome
  | .activated => root.activated.isSome
  | .activationToken => root.activationToken.isSome
  | .activate => root.activate
  | .promote => root.promote

def remove : RootFile → Root B
  | .database => { root with database := none }
  | .databaseWal => { root with databaseWal := false }
  | .databaseShm => { root with databaseShm := false }
  | .databaseIncoming => { root with databaseIncoming := none }
  | .databasePrepared => { root with databasePrepared := none }
  | .credential name => root.setCredential name fun files => { files with active := none }
  | .credentialIncoming name =>
      root.setCredential name fun files => { files with incoming := none }
  | .credentialPrepared name =>
      root.setCredential name fun files => { files with prepared := none }
  | .hubState => { root with hubState := none }
  | .movePhase => { root with movePhase := none }
  | .moveRecovery => { root with moveRecovery := none }
  | .moveSnapshot => { root with moveSnapshot := none }
  | .transfer => { root with transfer := none }
  | .activated => { root with activated := none }
  | .activationToken => { root with activationToken := none }
  | .activate => { root with activate := false }
  | .promote => { root with promote := false }

section Remove

variable {root}

theorem credentials_setCredential (name other : Credential)
    (change : CredentialFiles → CredentialFiles) :
    (root.setCredential name change).credentials other =
      if other = name then change (root.credentials other) else root.credentials other := rfl

@[simp] theorem has_remove (file : RootFile) : (root.remove file).has file = false := by
  cases file <;> simp [has, remove, setCredential]

theorem has_remove_of_ne {file other : RootFile} (hne : other ≠ file) :
    (root.remove file).has other = root.has other := by
  cases file <;> cases other <;> simp_all [has, remove, setCredential] <;> split <;> simp_all

theorem database_remove {file : RootFile} (hne : file ≠ .database) :
    (root.remove file).database = root.database := by
  cases file <;> first | rfl | exact absurd rfl hne

end Remove

end Root

/-- A computation over the directory of a machine. -/
abbrev RootAction (B : Type) := Durable (Root B) HubError

namespace RootAction

variable {B A : Type}

open Durable

/-- Reads a file that has to be there. -/
def load (view : Root B → Option A) : RootAction B A := do
  expect (← reads view) .file

def check (condition : Prop) [Decidable condition] (message : String) : RootAction B Unit :=
  require condition (.bail message)

def removeFile (file : RootFile) : RootAction B Unit := write fun root => root.remove file

def removeFiles (files : List RootFile) : RootAction B Unit := each files removeFile

section Rules

variable {root : Root B} {along : Root B → Prop} {failed : HubError → Root B → Prop}

@[simp] theorem holds_load (view : Root B → Option A) (post : A → Root B → Prop) :
    holds (load view) root along post failed ↔
      (∀ found, view root = some found → post found root) ∧
      (view root = none → failed .file root) := by
  simp [load]

@[simp] theorem holds_check (condition : Prop) [Decidable condition] (message : String)
    (post : Unit → Root B → Prop) :
    holds (check condition message) root along post failed ↔
      (condition → post () root) ∧ (¬condition → failed (.bail message) root) := by
  simp [check]

@[simp] theorem holds_removeFile (file : RootFile) (post : Unit → Root B → Prop) :
    holds (removeFile file) root along post failed ↔
      along (root.remove file) ∧ post () (root.remove file) := by
  simp [removeFile]

theorem keeps_load {inv : Root B → Prop} (view : Root B → Option A) : Keeps inv (load view) :=
  keeps_bind (keeps_reads view) fun value => keeps_expect value HubError.file

theorem keeps_check {inv : Root B → Prop} (condition : Prop) [Decidable condition]
    (message : String) : Keeps inv (check condition message) :=
  keeps_require condition (HubError.bail message)

end Rules

end RootAction

end Mews
