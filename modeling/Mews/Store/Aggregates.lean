import Mews.Store.Turns

/-!
# Agents, Hosts and the installation

The commands on the aggregates outside Sessions and the three functions that
project their journal entries.
-/

namespace Mews

open Protocol Table

/-! ## Validation -/

def isNameChar (char : Char) : Bool :=
  ('a' ≤ char && char ≤ 'z') || char.isDigit || char ∈ ['-', '_', '.']

def validName (value : String) : Bool :=
  value.toList ≠ [] && value.toList.all isNameChar

/-- A tool pattern: a name, optionally followed by `*`, or `*` alone. -/
def validToolName (tool : String) : Bool :=
  let chars := tool.toList
  let base := if chars.getLast? = some '*' then chars.dropLast else chars
  chars ≠ [] && (base ≠ [] || tool = "*") && base.all isNameChar

def AgentConfig.validateTools (seen : List String) : List String → Except String Unit
  | [] => .ok ()
  | tool :: rest =>
      if !validToolName tool then .error s!"invalid tool name {tool.quote}"
      else if tool ∈ seen then .error s!"duplicate tool name {tool.quote}"
      else validateTools (tool :: seen) rest

def AgentConfig.validateOptions : List (String × String) → Except String Unit
  | [] => .ok ()
  | (name, value) :: rest =>
      if !validName name then .error s!"invalid harness option name {name.quote}"
      else if isBlank value then .error s!"harness option {name.quote} must not be empty"
      else validateOptions rest

def AgentConfig.validate (config : AgentConfig) : Except String Unit := do
  if !validName config.harness then throw "invalid harness name"
  validateOptions config.harnessOptions
  validateTools [] config.tools

def validateHostName (value : String) : Except StoreError Unit :=
  demand (¬isBlank value ∧ value.utf8ByteSize ≤ 64)
    (.invalidData "Host name must be 1-64 characters")

def validateSlug (slug : String) : Except StoreError Unit :=
  demand (¬slug = "" ∧ slug.utf8ByteSize ≤ 64 ∧
    ∀ part ∈ slug.toList.splitOn '-', part ≠ [] ∧
      part.all fun char => ('a' ≤ char && char ≤ 'z') || char.isDigit)
    (.invalidAgent "slug must contain only lowercase letters, digits, and hyphens")

def validateDefinition (world : World) (soul configToml : String) : Except StoreError Unit := do
  demand (¬isBlank soul ∧ soul.utf8ByteSize ≤ 24 * 1024)
    (.invalidAgent "SOUL.md must contain 1-24576 bytes")
  demand (configToml.utf8ByteSize ≤ 8 * 1024)
    (.invalidAgent "agent.toml must not exceed 8192 bytes")
  let config ← (world.parseConfig configToml).mapError .invalidAgent
  config.validate.mapError .invalidAgent

/-! ## Projections -/

namespace Projection

variable (tables : Projection)

/-- Inserts a revision; its Agent and its author must exist. -/
def insertRevision (revision : AgentRevision) : Except StoreError Projection := do
  demand (∀ other ∈ tables.agentRevisions,
    ¬(other.agentId = revision.agentId ∧ other.revision = revision.revision)) Store.constraint
  demand (tables.agentExists revision.agentId ∧ tables.hostExists revision.authorHostId)
    Store.constraint
  return { tables with agentRevisions := tables.agentRevisions ++ [revision] }

def createAgent (agent : Agent) (initialRevision : AgentRevision) :
    Except StoreError Projection := do
  demand (∀ other ∈ tables.agents, other.id ≠ agent.id ∧ other.slug ≠ agent.slug)
    (.duplicateAgent agent.slug)
  { tables with agents := tables.agents ++ [agent] }.insertRevision initialRevision

def agentNotFound (id : String) : StoreError := .notFound "agent" id

def createRevision (revision : AgentRevision) : Except StoreError Projection := do
  let tables ← tables.insertRevision revision
  let current := fun agent : Agent => agent.id = revision.agentId ∧
    agent.currentRevision = revision.revision - 1 ∧ agent.archived = false
  if tables.agents.countP (fun agent => current agent) = 1 then
    return { tables with
      agents := updateWhere (fun agent => current agent)
        (fun agent => { agent with currentRevision := revision.revision }) tables.agents }
  else
    match tables.agents.find? fun agent => agent.id = revision.agentId with
    | none => throw (agentNotFound revision.agentId.asStr)
    | some agent => throw (.revisionConflict (revision.revision - 1) agent.currentRevision)

/-- `UPDATE OR IGNORE`: a slug that is taken by another Agent changes nothing. -/
def renameAgent (subject : String) (slug : String) : Except StoreError Projection := do
  let renamed := fun agent : Agent => agent.id.asStr = subject ∧ agent.archived = false
  demand ((∃ agent ∈ tables.agents, renamed agent) ∧
    ∀ agent ∈ tables.agents, agent.slug = slug → renamed agent) (.duplicateAgent slug)
  return { tables with
    agents := updateWhere (fun agent => renamed agent) (fun agent => { agent with slug })
      tables.agents }

def archiveAgent (subject : String) : Except StoreError Projection := do
  let archived := fun agent : Agent => agent.id.asStr = subject ∧ agent.archived = false
  demand (∃ agent ∈ tables.agents, archived agent) (agentNotFound subject)
  return { tables with
    agents := updateWhere (fun agent => archived agent)
      (fun agent => { agent with archived := true }) tables.agents }

def projectAgent (event : JournalEntry) : Except StoreError Projection :=
  match event.payload with
  | .agentCreated agent initialRevision => tables.createAgent agent initialRevision
  | .agentRevisionCreated revision => tables.createRevision revision
  | .agentRenamed slug => tables.renameAgent event.subject.id slug
  | .agentArchived => tables.archiveAgent event.subject.id
  | _ => .ok tables

def hostNotFound (hostId : HostId) : StoreError := .notFound "Host" hostId.asStr

def enrollHost (host : Host) : Except StoreError Projection := do
  demand (∀ other ∈ tables.hosts, other.host.id ≠ host.id ∧ other.host.name ≠ host.name ∧
    other.host.publicKey ≠ host.publicKey ∧ other.host.noisePublicKey ≠ host.noisePublicKey)
    Store.constraint
  return { tables with hosts := tables.hosts ++ [{ host, revoked := false }] }

/-- Without an installation the comparison with its Hub Host is never true. -/
def revokeHost (hostId : HostId) : Except StoreError Projection := do
  let revocable := fun row : HostRow => row.host.id = hostId ∧ row.revoked = false ∧
    tables.installation.any fun installation => installation.hubHostId ≠ row.host.id
  demand (∃ row ∈ tables.hosts, revocable row) (hostNotFound hostId)
  return { tables with
    hosts := updateWhere (fun row => revocable row) (fun row => { row with revoked := true })
      tables.hosts }

def createInvitation (id : InvitationId) (expiresAt : DateTime) (secretHash : String) :
    Except StoreError Projection := do
  demand (∀ other ∈ tables.invitations, other.id ≠ id ∧ other.secretHash ≠ secretHash)
    Store.constraint
  return { tables with
    invitations := tables.invitations ++ [{ id, secretHash, expiresAt, consumedAt := none }] }

def consumeInvitation (id : InvitationId) (recordedAt : DateTime) :
    Except StoreError Projection := do
  let invitations ← updateOne (fun row => row.id = id ∧ row.consumedAt = none)
    (fun row => { row with consumedAt := some recordedAt }) tables.invitations
    (.invalidData "invitation was concurrently consumed")
  return { tables with invitations }

def projectHost (event : JournalEntry) : Except StoreError Projection :=
  match event.payload with
  | .hostEnrolled host => tables.enrollHost host
  | .hostRevoked hostId => tables.revokeHost hostId
  | .hostInvitationCreated id expiresAt secretHash =>
      tables.createInvitation id expiresAt secretHash
  | .hostInvitationConsumed id _ => tables.consumeInvitation id event.recordedAt
  | _ => .ok tables

def createInstallation (installation : Installation) : Except StoreError Projection := do
  demand (tables.installation = none ∧ tables.hostExists installation.hubHostId) Store.constraint
  return { tables with installation := some installation }

def changeRelay (relayUrl : Option String) (hostId : Option HostId) : Projection :=
  { tables with
    installation := tables.installation.map fun installation => { installation with relayUrl }
    hosts := updateWhere (fun row => some row.host.id = hostId)
      (fun row => { row with host := { row.host with relayUrl } }) tables.hosts }

/-- `hub_host_id` references a Host whenever there is an installation. -/
def changeHub (hostId : HostId) (generation : Nat) : Except StoreError Projection := do
  demand (tables.installation = none ∨ tables.hostExists hostId = true) Store.constraint
  return { tables with
    installation := tables.installation.map fun installation =>
      { installation with hubHostId := hostId, generation } }

def projectInstallation (event : JournalEntry) : Except StoreError Projection :=
  match event.payload with
  | .installationCreated installation => tables.createInstallation installation
  | .relayChanged relayUrl hostId => .ok (tables.changeRelay relayUrl hostId)
  | .providerDefaultsChanged defaults => .ok { tables with settings := defaults }
  | .hubChanged hostId generation => tables.changeHub hostId generation
  | _ => .ok tables

end Projection

namespace Store

variable (world : World)

/-- Applies one projection to a batch of committed entries, in order. -/
def applyEvents (project : Projection → JournalEntry → Except StoreError Projection)
    (events : List JournalEntry) : Action Unit :=
  Tx.each events fun event => do
    let tables ← Tx.lift (← select fun tables => project tables event)
    Tx.modify fun store => { store with projection := tables }

def applyAgentEvents : List JournalEntry → Action Unit := applyEvents Projection.projectAgent

def applyHostEvents : List JournalEntry → Action Unit := applyEvents Projection.projectHost

def applyInstallationEvents : List JournalEntry → Action Unit :=
  applyEvents Projection.projectInstallation

def newJournalEntry (actor : EventActor) (payload : JournalEvent) : Action NewJournalEntry := do
  let id ← newId world
  return { id, actor, correlationId := none, payload }

def singleSubject (subject : JournalSubject) (actor : EventActor) (payload : JournalEvent) :
    Action (List JournalSubjectAppend) := do
  let entry ← newJournalEntry world actor payload
  return [{ subject, entries := [entry] }]

def hostActor (hostId : HostId) : EventActor := { kind := .host, id := some hostId.asStr }

/-! ## Agents -/

def revision (agentId : AgentId) (revision : Nat) (soul configToml : String)
    (authorHostId : HostId) (createdAt : DateTime) : AgentRevision :=
  { agentId, revision, soul, configToml, contentHash := world.contentHash soul configToml
    authorHostId, createdAt }

def decideCreateAgent (slug soul configToml : String) (authorHostId : HostId) :
    Action ((Agent × AgentRevision) × List JournalSubjectAppend) := do
  let now ← utcNow world
  let id ← newId world
  let agent : Agent := { id, slug, currentRevision := 1, archived := false, createdAt := now }
  let initial := revision world id 1 soul configToml authorHostId now
  let subjects ← singleSubject world (.agent id) (hostActor authorHostId)
    (.agentCreated agent initial)
  return ((agent, initial), subjects)

def createAgent (context : CommandContext) (slug soul configToml : String)
    (authorHostId : HostId) : Action (Agent × AgentRevision) := do
  Tx.lift (validateSlug slug)
  Tx.lift (validateDefinition world soul configToml)
  let (result, _) ← transactCommand world context "create_agent"
    (world.requestHash (.createAgent slug soul configToml authorHostId))
    (decideCreateAgent world slug soul configToml authorHostId) applyAgentEvents
  return result

def selectAgentBySlug (slug : String) : Action Agent := do
  Tx.expect (← select fun tables => tables.agents.find? fun agent =>
    agent.slug = slug ∧ agent.archived = false) (Projection.agentNotFound slug)

def decideRenameAgent (slug newSlug : String) : Action (Agent × List JournalSubjectAppend) := do
  let agent ← selectAgentBySlug slug
  let subjects ← singleSubject world (.agent agent.id) .system (.agentRenamed newSlug)
  return ({ agent with slug := newSlug }, subjects)

def renameAgentWithCommand (context : CommandContext) (command slug newSlug : String) :
    Action Agent := do
  Tx.lift (validateSlug newSlug)
  let (agent, _) ← transactCommand world context command
    (world.requestHash (.renameAgent slug newSlug)) (decideRenameAgent world slug newSlug)
    applyAgentEvents
  return agent

def renameAgent (context : CommandContext) (slug newSlug : String) : Action Agent :=
  renameAgentWithCommand world context "rename_agent" slug newSlug

/-- Compensates a committed rename when the filesystem move fails. -/
def rollbackAgentRename (context : CommandContext) (slug newSlug : String) : Action Agent :=
  renameAgentWithCommand world context "rollback_agent_rename" slug newSlug

def decideArchiveAgent (slug : String) : Action (Unit × List JournalSubjectAppend) := do
  let agent ← selectAgentBySlug slug
  let subjects ← singleSubject world (.agent agent.id) .system .agentArchived
  return ((), subjects)

def archiveAgent (context : CommandContext) (slug : String) : Action Unit := do
  let _ ← transactCommand world context "archive_agent"
    (world.requestHash (.archiveAgent slug)) (decideArchiveAgent world slug) applyAgentEvents

def decideUpdateAgent (agentId : AgentId) (expectedRevision : Nat) (soul configToml : String)
    (authorHostId : HostId) : Action (AgentRevision × List JournalSubjectAppend) := do
  let agent ← Tx.expect (← select fun tables => tables.agents.find? fun agent =>
    agent.id = agentId ∧ agent.archived = false) (Projection.agentNotFound agentId.asStr)
  Tx.require (agent.currentRevision = expectedRevision)
    (.revisionConflict expectedRevision agent.currentRevision)
  let now ← utcNow world
  let next := revision world agentId (agent.currentRevision + 1) soul configToml authorHostId now
  let subjects ← singleSubject world (.agent agentId) (hostActor authorHostId)
    (.agentRevisionCreated next)
  return (next, subjects)

def updateAgent (context : CommandContext) (agentId : AgentId) (expectedRevision : Nat)
    (soul configToml : String) (authorHostId : HostId) : Action AgentRevision := do
  Tx.lift (validateDefinition world soul configToml)
  let (result, _) ← transactCommand world context "update_agent"
    (world.requestHash (.updateAgent agentId expectedRevision soul configToml authorHostId))
    (decideUpdateAgent world agentId expectedRevision soul configToml authorHostId)
    applyAgentEvents
  return result

/-! ## Hosts -/

def requiredInstallation : Action Installation := do
  Tx.expect (← select fun tables => tables.installation) (.invalidData "installation is missing")

def hostActive (hostId : HostId) (tables : Projection) : Bool :=
  tables.hosts.any fun row => row.host.id = hostId ∧ row.revoked = false

def decideRevokeHost (id : HostId) : Action (Unit × List JournalSubjectAppend) := do
  let installation ← requiredInstallation
  Tx.require (¬installation.hubHostId = id)
    (.invalidData "cannot remove the Host currently running Hub")
  let active ← select (hostActive id)
  Tx.require (active = true) (Projection.hostNotFound id)
  let subjects ← singleSubject world (.host id) .system (.hostRevoked id)
  return ((), subjects)

def revokeHost (context : CommandContext) (id : HostId) : Action Unit := do
  let _ ← transactCommand world context "revoke_host" (world.requestHash (.revokeHost id))
    (decideRevokeHost world id) applyHostEvents

/-- Invitations are not retryable: the one-time secret is never stored. -/
def createInvitation (context : CommandContext) (expiresAt : DateTime) :
    Action (InvitationId × String) := do
  let requestId : RequestId ← newId world
  let now ← utcNow world
  Tx.require (now < expiresAt) (.invalidData "invitation expiry must be in the future")
  let id ← newId world
  let secret ← newSecret world
  let installation ← requiredInstallation
  let subjects ← singleSubject world (.installation installation.id) .system
    (.hostInvitationCreated id expiresAt (world.secretHash secret))
  let append : JournalAppend :=
    { commandId := .operation "create_invitation" (context.commandId ++ ":" ++ requestId.asStr)
      requestHash := world.requestHash (.createInvitation expiresAt)
      result := .invitation id
      subjects }
  let _ ← appendJournalEntriesWith world (context.decorate append) applyHostEvents
  return (id, secret)

def decideConsumeInvitation (invitationId : InvitationId)
    (secret name publicKey noisePublicKey relayUrl : String) :
    Action (Host × List JournalSubjectAppend) := do
  let invitation ← Tx.expect (← select fun tables => tables.invitations.find? fun row =>
    row.id = invitationId) (.notFound "invitation" invitationId.asStr)
  let now ← utcNow world
  Tx.require (invitation.consumedAt = none ∧ now < invitation.expiresAt ∧
    invitation.secretHash = world.secretHash secret)
    (.invalidData "invitation is invalid, expired, or already used")
  let id ← newId world
  let createdAt ← utcNow world
  let host : Host := { id, name, publicKey, noisePublicKey, relayUrl := some relayUrl, createdAt }
  let installation ← requiredInstallation
  let consumed ← singleSubject world (.installation installation.id) .system
    (.hostInvitationConsumed invitationId id)
  let enrolled ← singleSubject world (.host id) .system (.hostEnrolled host)
  return (host, consumed ++ enrolled)

def consumeInvitation (context : CommandContext) (invitationId : InvitationId)
    (secret name publicKey noisePublicKey relayUrl : String) : Action Host := do
  Tx.lift (validateHostName name)
  let (host, _) ← transactCommand world context "consume_invitation"
    (world.requestHash (.consumeInvitation invitationId (world.secretHash secret) name publicKey
      noisePublicKey relayUrl))
    (decideConsumeInvitation world invitationId secret name publicKey noisePublicKey relayUrl)
    applyHostEvents
  return host

/-! ## Installation -/

def applyHostAndInstallationEvents (events : List JournalEntry) : Action Unit := do
  applyHostEvents events
  applyInstallationEvents events

/-- `Store::initialize`: an existing installation is returned as it is. -/
def initializeHub (context : CommandContext)
    (hostName hostPublicKey hostNoisePublicKey installationPublicKey : String) :
    Action Installation := do
  Tx.lift (validateHostName hostName)
  match ← select fun tables => tables.installation with
  | some existing => return existing
  | none =>
      let now ← utcNow world
      let hostId ← newId world
      let host : Host :=
        { id := hostId, name := hostName, publicKey := hostPublicKey
          noisePublicKey := hostNoisePublicKey, relayUrl := none, createdAt := now }
      let installationId ← newId world
      let installation : Installation :=
        { id := installationId, publicKey := installationPublicKey, relayUrl := none
          hubHostId := hostId, generation := 1, createdAt := now }
      let enrolled ← singleSubject world (.host hostId) .system (.hostEnrolled host)
      let created ← singleSubject world (.installation installationId) .system
        (.installationCreated installation)
      let append : JournalAppend :=
        { commandId := context.operationId "initialize"
          requestHash := world.requestHash (.initializeHub hostName hostPublicKey
            hostNoisePublicKey installationPublicKey)
          result := .installation installation
          subjects := enrolled ++ created }
      let _ ← appendJournalEntriesWith world (context.decorate append)
        applyHostAndInstallationEvents
      return installation

def appendInstallationEvent (context : CommandContext) (command : String)
    (request : CommandRequest) (payload : JournalEvent) : Action Unit := do
  let installation ← requiredInstallation
  let subjects ← singleSubject world (.installation installation.id) .system payload
  let append : JournalAppend :=
    { commandId := context.operationId command, requestHash := world.requestHash request
      result := .none, subjects }
  let _ ← appendJournalEntriesWith world (context.decorate append) applyInstallationEvents

def setRelayUrl (context : CommandContext) (relayUrl : String) : Action Unit := do
  let installation ← requiredInstallation
  appendInstallationEvent world context "set_relay_url" (.relayUrl relayUrl)
    (.relayChanged (some relayUrl) (some installation.hubHostId))

def setInstallationRelayUrl (context : CommandContext) (relayUrl : String) : Action Unit :=
  appendInstallationEvent world context "set_installation_relay_url" (.relayUrl relayUrl)
    (.relayChanged (some relayUrl) none)

/-- The two provider defaults are changed one at a time and journaled together. -/
def decideProviderDefaults (change : ProviderDefaults → ProviderDefaults) :
    Action (Unit × List JournalSubjectAppend) := do
  let installation ← requiredInstallation
  let settings ← select fun tables => tables.settings
  let subjects ← singleSubject world (.installation installation.id) .system
    (.providerDefaultsChanged (change settings))
  return ((), subjects)

def setProviderDefaults (context : CommandContext) (command : String) (request : CommandRequest)
    (change : ProviderDefaults → ProviderDefaults) : Action Unit := do
  let _ ← transactCommand world context command (world.requestHash request)
    (decideProviderDefaults world change) applyInstallationEvents

def setDefaultModel (context : CommandContext) (model : String) : Action Unit :=
  setProviderDefaults world context "set_default_model" (.setDefaultModel model)
    fun settings => { settings with model := some model }

def setDefaultReasoning (context : CommandContext) (reasoning : Option ReasoningEffort) :
    Action Unit :=
  setProviderDefaults world context "set_default_reasoning" (.setDefaultReasoning reasoning)
    fun settings => { settings with reasoning }

def decideMoveHub (expected target : HostId) :
    Action (Installation × List JournalSubjectAppend) := do
  let active ← select (hostActive target)
  Tx.require (active = true) (Projection.hostNotFound target)
  let installation ← requiredInstallation
  Tx.require (installation.hubHostId = expected)
    (.invalidData "Hub generation changed concurrently")
  let moved : Installation :=
    { installation with hubHostId := target, generation := installation.generation + 1 }
  let subjects ← singleSubject world (.installation installation.id) .system
    (.hubChanged target moved.generation)
  return (moved, subjects)

def moveHub (context : CommandContext) (expected target : HostId) : Action Installation := do
  let (installation, _) ← transactCommand world context "move_hub"
    (world.requestHash (.moveHub expected target)) (decideMoveHub world expected target)
    applyInstallationEvents
  return installation

end Store

end Mews
