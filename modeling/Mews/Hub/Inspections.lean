import Mews.Core.Cursors
import Mews.Host.Messages
import Mews.Hub.JournalPages

/-!
# Hosts and inspected tools

Hosts and the tools of an inspected Agent are handed out in pages that fit into one frame of
the Hub with everything around them.  The last page has no cursor, so that it may be shorter
than a page with fewer tools.
-/

namespace Mews

open Protocol HostProtocol

/-! ## Responses and their length -/

structure HostStatus where
  host : Host
  connected : Bool
  deriving DecidableEq, Repr

structure HostPage where
  hosts : List HostStatus
  next : Option HostId
  deriving DecidableEq, Repr

inductive AgentToolSource where
  | mewsNative
  | harnessNative
  | agentExtension
  deriving DecidableEq, Repr

inductive AgentToolExposure where
  | exposed
  | excludedByAllowlist
  | harnessUnavailable
  | unsupportedTransport
  | harnessControlled
  deriving DecidableEq, Repr

structure AgentToolInspection where
  name : String
  source : AgentToolSource
  allowlistMatch : Bool
  exposure : AgentToolExposure
  deriving DecidableEq, Repr

/-- The thirty-two bytes of a SHA-256 digest. -/
abbrev SnapshotHash := Vector UInt8 32

structure AgentToolCursor where
  snapshotHash : SnapshotHash
  offset : ℕ
  deriving DecidableEq, Repr

structure AgentToolInspectionPage where
  tools : List AgentToolInspection
  next : Option AgentToolCursor
  deriving DecidableEq, Repr

inductive AcpSkillToolsState where
  | notApplicable
  | noneKnown
  | conditional
  | exposed
  | harnessUnavailable
  | unsupportedTransport
  deriving DecidableEq, Repr

structure AcpSkillToolsInspection where
  names : List String
  state : AcpSkillToolsState
  deriving DecidableEq, Repr

structure AgentHarnessInspection where
  name : String
  protocol : HarnessProtocol
  availability : HarnessAvailability
  supportsHttpMcp : Bool
  deriving DecidableEq, Repr

inductive HarnessNativeAuthority where
  | notApplicable
  | knownUncontrolled
  | unknownUncontrolled
  deriving DecidableEq, Repr

structure AgentHostInspection where
  host : Host
  connected : Bool
  harness : Option AgentHarnessInspection
  harnessNativeAuthority : HarnessNativeAuthority
  acpSkillTools : AcpSkillToolsInspection
  toolCatalogGeneration : Option ℕ
  tools : AgentToolInspectionPage
  deriving DecidableEq, Repr

structure AgentInspection where
  agent : Agent
  revisionHash : String
  authorHostId : HostId
  config : AgentConfig
  host : Option AgentHostInspection
  deriving DecidableEq

/-- The responses of the Hub that are paged here. -/
inductive HubResponse where
  | agentInspection (inspection : AgentInspection)
  | hosts (page : HostPage)
  deriving DecidableEq

def HostStatus.bytes (status : HostStatus) : ℕ :=
  objectBytes [("host", status.host.bytes), ("connected", boolBytes status.connected)]

def HostPage.bytes (page : HostPage) : ℕ :=
  objectBytes [("hosts", arrayBytes (page.hosts.map (·.bytes))),
    ("next", nullable (page.next.map (·.bytes)))]

def AgentToolSource.asStr : AgentToolSource → String
  | .mewsNative => "mews_native"
  | .harnessNative => "harness_native"
  | .agentExtension => "agent_extension"

def AgentToolExposure.asStr : AgentToolExposure → String
  | .exposed => "exposed"
  | .excludedByAllowlist => "excluded_by_allowlist"
  | .harnessUnavailable => "harness_unavailable"
  | .unsupportedTransport => "unsupported_transport"
  | .harnessControlled => "harness_controlled"

def AgentToolInspection.bytes (tool : AgentToolInspection) : ℕ :=
  objectBytes [("name", textBytes tool.name), ("source", nameBytes tool.source.asStr),
    ("allowlist_match", boolBytes tool.allowlistMatch),
    ("exposure", nameBytes tool.exposure.asStr)]

def AgentToolCursor.bytes (cursor : AgentToolCursor) : ℕ :=
  objectBytes [("snapshot_hash",
      arrayBytes (cursor.snapshotHash.toList.map fun byte => numberBytes byte.toNat)),
    ("offset", numberBytes cursor.offset)]

def AgentToolInspectionPage.bytes (page : AgentToolInspectionPage) : ℕ :=
  objectBytes [("tools", arrayBytes (page.tools.map (·.bytes))),
    ("next", nullable (page.next.map (·.bytes)))]

def AcpSkillToolsState.asStr : AcpSkillToolsState → String
  | .notApplicable => "not_applicable"
  | .noneKnown => "none_known"
  | .conditional => "conditional"
  | .exposed => "exposed"
  | .harnessUnavailable => "harness_unavailable"
  | .unsupportedTransport => "unsupported_transport"

def AcpSkillToolsInspection.bytes (skillTools : AcpSkillToolsInspection) : ℕ :=
  objectBytes [("names", arrayBytes (skillTools.names.map textBytes)),
    ("state", nameBytes skillTools.state.asStr)]

def AgentHarnessInspection.bytes (harness : AgentHarnessInspection) : ℕ :=
  objectBytes [("name", textBytes harness.name), ("protocol", nameBytes harness.protocol.asStr),
    ("availability", harness.availability.bytes),
    ("supports_http_mcp", boolBytes harness.supportsHttpMcp)]

def HarnessNativeAuthority.asStr : HarnessNativeAuthority → String
  | .notApplicable => "not_applicable"
  | .knownUncontrolled => "known_uncontrolled"
  | .unknownUncontrolled => "unknown_uncontrolled"

def AgentHostInspection.bytes (inspection : AgentHostInspection) : ℕ :=
  objectBytes [("host", inspection.host.bytes), ("connected", boolBytes inspection.connected),
    ("harness", nullable (inspection.harness.map (·.bytes))),
    ("harness_native_authority", nameBytes inspection.harnessNativeAuthority.asStr),
    ("acp_skill_tools", inspection.acpSkillTools.bytes),
    ("tool_catalog_generation", nullable (inspection.toolCatalogGeneration.map numberBytes)),
    ("tools", inspection.tools.bytes)]

def ToolExecutionMode.asStr : ToolExecutionMode → String
  | .sequential => "sequential"
  | .parallel => "parallel"

def AgentConfig.bytes (config : AgentConfig) : ℕ :=
  objectBytes ([("harness", textBytes config.harness)] ++
    (if config.harnessOptions = [] then [] else
      [("harness_options", 1 + (config.harnessOptions.map fun option =>
        textBytes option.1 + textBytes option.2 + 2).sum)]) ++
    [("tools", arrayBytes (config.tools.map textBytes)),
      ("tool_execution", nameBytes config.toolExecution.asStr)])

def AgentInspection.bytes (inspection : AgentInspection) : ℕ :=
  objectBytes [("agent", inspection.agent.bytes),
    ("revision_hash", textBytes inspection.revisionHash),
    ("author_host_id", inspection.authorHostId.bytes), ("config", inspection.config.bytes),
    ("host", nullable (inspection.host.map (·.bytes)))]

def HubResponse.bytes : HubResponse → ℕ
  | .agentInspection inspection =>
      objectBytes [("type", nameBytes "agent_inspection"), ("data", inspection.bytes)]
  | .hosts page => objectBytes [("type", nameBytes "hosts"), ("data", page.bytes)]

/-- A response in its frame. -/
def HubResponse.frameBytes (requestId : RequestId) (response : HubResponse) : ℕ :=
  objectBytes [("protocol", numberBytes 5), ("request_id", requestId.bytes),
    ("body", response.bytes)]

/-! ## The pagers -/

def hubResponseFits (requestId : RequestId) (response : HubResponse) : Bool :=
  response.frameBytes requestId ≤ maxHubFrameBytes

/-- The first Hosts of those that remain, with the cursor that leads to the others. -/
def hostPageTo (remaining : List HostStatus) (count : ℕ) : HostPage where
  hosts := remaining.take count
  next := if count < remaining.length then (remaining.take count).getLast?.map (·.host.id) else none

def sortedHosts (hosts : List HostStatus) : List HostStatus :=
  hosts.mergeSort fun left right => left.host.id.asStr ≤ right.host.id.asStr

def HostStatus.remains (after : Option HostId) (status : HostStatus) : Bool :=
  after.all fun after => after.asStr < status.host.id.asStr

def remainingHosts (hosts : List HostStatus) (after : Option HostId) : List HostStatus :=
  (sortedHosts hosts).filter (·.remains after)

/-- `requestId` is the identifier that is drawn to measure the frame. -/
def hostPage (requestId : RequestId) (hosts : List HostStatus) (after : Option HostId)
    (limit : ℕ) : Except String HostPage :=
  if limit = 0 then .error "Host page limit must be greater than zero"
  else
    let remaining := remainingHosts hosts after
    let maximum := min remaining.length limit
    let fits := fun count => .ok (hubResponseFits requestId (.hosts (hostPageTo remaining count)))
    match Cursors.search fits 0 maximum with
    | .error error => .error error
    | .ok low =>
        if low = 0 ∧ remaining ≠ [] then .error "one Host status exceeds the Hub frame limit"
        else .ok (hostPageTo remaining low)

/-- The inspection with a page of its tools. -/
def AgentInspection.withTools (inspection : AgentInspection) (host : AgentHostInspection)
    (page : AgentToolInspectionPage) : AgentInspection :=
  { inspection with host := some { host with tools := page } }

/-- The tools in an interval, with the cursor that leads to those behind it. -/
def toolPageTo (allTools : List AgentToolInspection) (snapshotHash : SnapshotHash)
    (start stop : ℕ) : Except String AgentToolInspectionPage :=
  let tools := (allTools.take stop).drop start
  if stop < allTools.length then
    if stop < 2 ^ 32 then .ok { tools, next := some { snapshotHash, offset := stop } }
    else .error "tool catalog has too many entries"
  else .ok { tools, next := none }

def paginateAgentInspection (requestId : RequestId) (inspection : AgentInspection)
    (allTools : List AgentToolInspection) (snapshotHash : SnapshotHash)
    (afterTool : Option AgentToolCursor) (toolLimit : ℕ) : Except String AgentInspection :=
  if toolLimit = 0 then .error "tool page limit must be greater than zero"
  else if afterTool.any fun cursor => cursor.snapshotHash ≠ snapshotHash then
    .error "inspection snapshot changed while tools were paged; restart inspection"
  else
    let start := afterTool.elim 0 (·.offset)
    if allTools.length < start then .error "tool cursor is outside the catalog"
    else
      match inspection.host with
      | none => .ok inspection
      | some host =>
          let fits := fun page =>
            hubResponseFits requestId (.agentInspection (inspection.withTools host page))
          if !fits { tools := [], next := none } then
            .error "Agent inspection metadata exceeds the Hub frame limit"
          else
            let maximum := min allTools.length (start + toolLimit)
            let candidate := fun stop => (toolPageTo allTools snapshotHash start stop).map fits
            match Cursors.search candidate start maximum with
            | .error error => .error error
            | .ok low =>
                if low = start ∧ start < allTools.length then
                  .error "one inspected tool exceeds the Hub frame limit"
                else (toolPageTo allTools snapshotHash start low).map (inspection.withTools host)

/-- What an inspection was made of. -/
structure AgentInspectionSnapshotBinding where
  agent : Agent
  revision : AgentRevision
  config : AgentConfig
  host : Option Host
  connected : Bool
  harness : Option HarnessDescriptor
  toolCatalog : Option ToolCatalogSnapshot
  acpSkillTools : Option AcpSkillToolsInspection
  tools : List AgentToolInspection

/-- A snapshot of an inspection is named by the digest of its encoding. -/
structure SnapshotHasher where
  toVec : AgentInspectionSnapshotBinding → List UInt8
  sha256 : List UInt8 → SnapshotHash

def agentInspectionSnapshotHash (hasher : SnapshotHasher)
    (binding : AgentInspectionSnapshotBinding) : SnapshotHash :=
  hasher.sha256 (hasher.toVec binding)

end Mews
