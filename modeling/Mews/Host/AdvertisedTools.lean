import Mews.Host.ToolRegistry

/-!
# Tools as advertised

One watcher reloads the extensions of a registry.  Its catalogs reach the Hub one after the
other, each when the next message of the link carries it, and the Turns of the Hub and the
MCP bridges of the Host keep the catalog that they have read for as long as they call tools.
-/

namespace Mews.ToolRegistry

open Protocol HostProtocol

/-! ## Parts -/

/-- A registry with what `catalog` holds for its subscribers and how often it has changed. -/
structure Registry where
  state : RegistryState
  catalog : ToolCatalogSnapshot
  version : Nat
  extensionFingerprint : Option String
  deriving DecidableEq, Repr

/-- How far `reload_extensions` has come. -/
inductive ReloadStage where
  | starting
  | loading (fingerprint : String)
  | loaded (fingerprint : String) (extensions : List RuntimeExtension)
  | checked (fingerprint : String) (tools : Tools) (hooks : List ExternalHook)
  /-- The lock is released; `send_replace` is next. -/
  | applied (fingerprint : String) (snapshot : ToolCatalogSnapshot)
  | published (fingerprint : String)
  deriving DecidableEq, Repr

/-- A reload that runs; `started` is what the registry held when it began. -/
structure Reload where
  started : RegistryState
  stage : ReloadStage
  deriving DecidableEq, Repr

/-- What the Host does for its subscription to the catalogs. -/
inductive Forwarder where
  | unsubscribed
  | waiting (seen : Nat)
  /-- `changed` has returned. -/
  | noticed (seen : Nat)
  | sending (seen : Nat) (tools : ToolCatalogSnapshot)
  deriving DecidableEq, Repr

/-- A connection of the Hub to the Host.  `tools` is the catalog of `ConnectedHost`, which
begins as `initial`; `published` and `received` are the history of the catalogs that the Host
has sent and the Hub has received. -/
structure Link where
  initial : ToolCatalogSnapshot
  tools : ToolCatalogSnapshot
  forwarder : Forwarder
  inFlight : List ToolCatalogSnapshot
  published : List ToolCatalogSnapshot
  received : List ToolCatalogSnapshot
  deriving DecidableEq, Repr

/-- Where a catalog has been read; the Hub's, with the history of the link at that time. -/
inductive Origin where
  | hub (initial : ToolCatalogSnapshot) (published received : List ToolCatalogSnapshot)
  | mcp
  deriving DecidableEq, Repr

/-- A catalog that has been read, and what its reader has compiled of it. -/
structure Capture where
  agentId : AgentId
  origin : Origin
  snapshot : ToolCatalogSnapshot
  catalog : ToolCatalogSnapshot
  deriving DecidableEq, Repr

/-- A call that the catalog of `capture` has validated. -/
structure ToolRequest where
  capture : Capture
  name : String
  arguments : Value
  catalogGeneration : Nat
  deriving DecidableEq, Repr

structure System where
  registry : Registry
  reload : Option Reload
  link : Option Link
  captures : List Capture
  requests : List ToolRequest
  ran : List (ToolRequest × Tool)
  deriving DecidableEq, Repr

/-! ## Captures -/

/-- `MewsRuntime::tools`. -/
def visibleTools (agentId : AgentId) (allowedTools : List String)
    (tools : List ToolDefinition) : List ToolDefinition :=
  (tools.filter fun tool =>
    (tool.agentId = none || tool.agentId = some agentId) &&
      allowedTools.any fun pattern => toolAllowed pattern tool.name).map
    fun tool => { tool with agentId := none }

def isNativeMewsTool (name : String) : Bool := name ∈ ["read", "write", "edit", "bash"]

def acpSkillToolNames : List String := ["mews_list_skills", "mews_read_skill"]

def isReservedAcpSkillTool (name : String) : Bool := name ∈ acpSkillToolNames

def skillTools : List ToolDefinition :=
  [⟨"mews_list_skills", "List selected-agent skill metadata.",
      .object [("additionalProperties", .bool false), ("type", .string "object")], none⟩,
    ⟨"mews_read_skill", "Read one selected-agent SKILL.md snapshot.",
      Tool.objectSchema [("name", Tool.ofType "string")], none⟩]

/-- What `TurnMcpBridge` offers of the tools of an Agent. -/
def bridgedTools (allowedTools : List String) (tools : List ToolDefinition) :
    List ToolDefinition :=
  (tools.filter fun tool => !isNativeMewsTool tool.name).filter fun tool =>
    allowedTools.any fun pattern => toolAllowed pattern tool.name

/-! ## Steps -/

inductive ReloadAction where
  /-- `resource_fingerprint`, or its failure. -/
  | fingerprint (fingerprint : Option String)
  /-- `runtime_extensions`, or its failure. -/
  | load (extensions : Option (List RuntimeExtension))
  | check
  | apply
  | publish
  | record
  deriving DecidableEq, Repr

inductive LinkAction where
  | subscribe
  | notice
  | borrow
  | send
  | receive
  deriving DecidableEq, Repr

inductive Action where
  | reload
  | reloading (action : ReloadAction)
  | connect (inProcess : Bool)
  | link (action : LinkAction)
  | disconnect
  /-- A Turn reads the catalog; `visible` is what its `before_model` hooks leave of it. -/
  | captureTurn (agentId : AgentId) (allowedTools : List String) (visible : List ToolDefinition)
  | captureBridge (agentId : AgentId) (allowedTools : List String) (skills : Bool)
  | call (capture : Capture) (name : String) (arguments : Value)
  | execute (request : ToolRequest)
  | hook (agentId : AgentId) (hook : String) (catalogGeneration : Option Nat)
  deriving DecidableEq, Repr

/-- The libraries that compile the schemas of tools and check arguments by them. -/
structure Schemas where
  library : Libraries
  validates : Value → Value → Bool

namespace System

variable (schemas : Schemas)

/-- The registry of `with_defaults`. -/
def initial : System where
  registry :=
    { state := .withDefaults
      catalog := RegistryState.withDefaults.snapshot
      version := 4
      extensionFingerprint := none }
  reload := none
  link := none
  captures := []
  requests := []
  ran := []

def stepReload (system : System) (reload : Reload) : ReloadAction → Option System
  | .fingerprint fingerprint =>
      match reload.stage, fingerprint with
      | .starting, none => some { system with reload := none }
      | .starting, some fingerprint =>
          some { system with reload := some { reload with stage := .loading fingerprint } }
      | _, _ => none
  | .load extensions =>
      match reload.stage, extensions with
      | .loading _, none => some { system with reload := none }
      | .loading fingerprint, some extensions =>
          some { system with reload := some { reload with stage := .loaded fingerprint extensions } }
      | _, _ => none
  | .check =>
      match reload.stage with
      | .loaded fingerprint extensions =>
          match system.registry.state.check extensions with
          | .error _ => some { system with reload := none }
          | .ok tools =>
              some { system with
                reload := some { reload with
                  stage := .checked fingerprint tools
                    (extensions.flatMap RuntimeExtension.externalHooks) } }
      | _ => none
  | .apply =>
      match reload.stage with
      | .checked fingerprint tools hooks =>
          let state := system.registry.state.apply tools hooks
          some { system with
            registry := { system.registry with state }
            reload := some { reload with stage := .applied fingerprint state.snapshot } }
      | _ => none
  | .publish =>
      match reload.stage with
      | .applied fingerprint snapshot =>
          some { system with
            registry := { system.registry with
              catalog := snapshot
              version := system.registry.version + 1 }
            reload := some { reload with stage := .published fingerprint } }
      | _ => none
  | .record =>
      match reload.stage with
      | .published fingerprint =>
          some { system with
            registry := { system.registry with extensionFingerprint := some fingerprint }
            reload := none }
      | _ => none

def stepLink (registry : Registry) (link : Link) : LinkAction → Option Link
  | .subscribe =>
      match link.forwarder with
      | .unsubscribed =>
          some { link with forwarder := .sending registry.version registry.catalog }
      | _ => none
  | .notice =>
      match link.forwarder with
      | .waiting seen =>
          if seen < registry.version then
            some { link with forwarder := .noticed registry.version }
          else none
      | _ => none
  | .borrow =>
      match link.forwarder with
      | .noticed seen => some { link with forwarder := .sending seen registry.catalog }
      | _ => none
  | .send =>
      match link.forwarder with
      | .sending seen tools =>
          some { link with
            forwarder := .waiting seen
            inFlight := link.inFlight ++ [tools]
            published := tools :: link.published }
      | _ => none
  | .receive =>
      match link.inFlight with
      | tools :: inFlight =>
          some { link with tools, inFlight, received := tools :: link.received }
      | [] => none

/-- The catalog that a Turn compiles. -/
def captureTurn (link : Link) (agentId : AgentId) (allowedTools : List String)
    (visible : List ToolDefinition) : Option Capture :=
  let tools := visibleTools agentId allowedTools link.tools.tools
  match NativeTurn.ensureCatalogTools schemas.library tools visible,
      NativeTurn.compileTools schemas.library visible [] with
  | .ok (), .ok () =>
      some
        { agentId
          origin := .hub link.initial link.published link.received
          snapshot := link.tools
          catalog := ⟨link.tools.generation, visible⟩ }
  | _, _ => none

/-- `TurnMcpBridge::for_extensions_and_skills`. -/
def captureBridge (state : RegistryState) (agentId : AgentId) (allowedTools : List String)
    (skills : Bool) : Option Capture :=
  let snapshot := state.extensionDefinitions agentId
  let definitions := bridgedTools allowedTools snapshot.tools
  if definitions.any fun tool => isReservedAcpSkillTool tool.name then none
  else
    let definitions := definitions ++ if skills then skillTools else []
    match NativeTurn.compileTools schemas.library definitions [] with
    | .ok () =>
        some
          { agentId
            origin := .mcp
            snapshot
            catalog := ⟨snapshot.generation, definitions⟩ }
    | .error _ => none

/-- `ToolCatalog::validate`; the tools for skills are answered by the bridge itself. -/
def validate (capture : Capture) (name : String) (arguments : Value) : Option ToolRequest :=
  match capture.catalog.tools.find? (·.name = name) with
  | none => none
  | some definition =>
      if schemas.validates definition.schema arguments = false then none
      else if capture.origin = .mcp ∧ isReservedAcpSkillTool name then none
      else
        some { capture, name, arguments, catalogGeneration := capture.catalog.generation }

def step (system : System) : Action → Option System
  | .reload =>
      match system.reload with
      | none => some { system with reload := some ⟨system.registry.state, .starting⟩ }
      | some _ => none
  | .reloading action => system.reload.bind fun reload => stepReload system reload action
  | .connect inProcess =>
      match system.link with
      | none =>
          let initial := if inProcess then system.registry.state.snapshot else ⟨0, []⟩
          some { system with link := some ⟨initial, initial, .unsubscribed, [], [], []⟩ }
      | some _ => none
  | .link action =>
      (system.link.bind fun link => stepLink system.registry link action).map fun link =>
        { system with link := some link }
  | .disconnect => some { system with link := none }
  | .captureTurn agentId allowedTools visible =>
      match system.link with
      | none => none
      | some link =>
          (captureTurn schemas link agentId allowedTools visible).map fun capture =>
            { system with captures := capture :: system.captures }
  | .captureBridge agentId allowedTools skills =>
      (captureBridge schemas system.registry.state agentId allowedTools skills).map fun capture =>
        { system with captures := capture :: system.captures }
  | .call capture name arguments =>
      if capture ∈ system.captures then
        (validate schemas capture name arguments).map fun request =>
          { system with requests := request :: system.requests }
      else none
  | .execute request =>
      if request ∈ system.requests then
        match system.registry.state.executeAtGeneration request.capture.agentId request.name
            request.catalogGeneration with
        | .error _ => some { system with requests := system.requests.erase request }
        | .ok tool =>
            some { system with
              requests := system.requests.erase request
              ran := (request, tool) :: system.ran }
      else none
  | .hook agentId hook catalogGeneration =>
      match system.registry.state.executeHooksAtGeneration agentId hook catalogGeneration with
      | .error _ => none
      | .ok _ => some system

def run (system : System) : List Action → Option System
  | [] => some system
  | action :: actions => (system.step schemas action).bind fun after => after.run actions

end System

end Mews.ToolRegistry
