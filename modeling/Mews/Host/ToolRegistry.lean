import Mews.Host.TurnMessages

/-!
# The tool registry of a Host

The tools and hooks of a Host are replaced as a whole when its extensions are reloaded, and
every replacement has its own generation.  A call names the generation of the catalog that
it was chosen from, and runs only while that generation is the current one.
-/

namespace Mews.ToolRegistry

open Protocol HostProtocol

/-! ## Tools -/

/-- The tool of an extension. -/
structure ExtensionManifest where
  name : String
  description : String
  command : List String
  schema : Value
  agentId : AgentId
  deriving DecidableEq, Repr

/-- What a Host can run under the name of a tool. -/
inductive Tool where
  | read
  | write
  | edit
  | bash
  | external (manifest : ExtensionManifest)
  deriving DecidableEq, Repr

namespace Tool

def name : Tool → String
  | read => "read"
  | write => "write"
  | edit => "edit"
  | bash => "bash"
  | external manifest => manifest.name

def description : Tool → String
  | read => "Read a UTF-8 text file"
  | write => "Create or replace a UTF-8 text file"
  | edit => "Replace one exact, unique string in a UTF-8 file"
  | bash => "Run a shell command with the Host user's authority"
  | external manifest => manifest.description

def ofType (name : String) : Value := .object [("type", .string name)]

/-- The schema of an object all of whose members are required. -/
def objectSchema (members : List (String × Value)) : Value :=
  .object [("additionalProperties", .bool false), ("properties", .object members),
    ("required", .array (members.map fun member => .string member.1)),
    ("type", .string "object")]

def schema : Tool → Value
  | read => objectSchema [("path", ofType "string")]
  | write => objectSchema [("path", ofType "string"), ("content", ofType "string")]
  | edit =>
      objectSchema [("path", ofType "string"), ("old_text", ofType "string"),
        ("new_text", ofType "string")]
  | bash =>
      objectSchema [("command", ofType "string"),
        ("timeout_seconds", .object [("maximum", .number "3600"), ("minimum", .number "1"),
          ("type", .array [.string "integer", .string "null"])])]
  | external manifest => manifest.schema

def definition (tool : Tool) (agentId : Option AgentId) : ToolDefinition where
  name := tool.name
  description := tool.description
  schema := tool.schema
  agentId

end Tool

/-- The maps of the registry by name, and by owner and name. -/
structure Tools where
  native : List (String × Tool)
  extensions : List ((AgentId × String) × Tool)
  deriving DecidableEq, Repr

/-- `BTreeMap::insert`. -/
def insertEntry {K : Type} [DecidableEq K] (key : K) (tool : Tool) (entries : List (K × Tool)) :
    List (K × Tool) :=
  (key, tool) :: entries.filter fun entry => entry.1 ≠ key

namespace Tools

def registerNative (tools : Tools) (tool : Tool) : Tools :=
  { tools with native := insertEntry tool.name tool tools.native }

def register (tools : Tools) (agentId : AgentId) (tool : Tool) : Tools :=
  { tools with extensions := insertEntry (agentId, tool.name) tool tools.extensions }

/-- The tools of `ToolRegistry::with_defaults`. -/
def defaults : Tools :=
  [.read, .write, .edit, .bash].foldl registerNative ⟨[], []⟩

def definitions (tools : Tools) : List ToolDefinition :=
  tools.native.map (fun entry => entry.2.definition none) ++
    tools.extensions.map fun entry => entry.2.definition (some entry.1.1)

/-- An Agent's own tool of that name, or else the native one. -/
def find (tools : Tools) (agentId : AgentId) (name : String) : Option Tool :=
  (tools.extensions.lookup (agentId, name)).or (tools.native.lookup name)

end Tools

structure ExternalHook where
  agentId : AgentId
  extension : String
  command : List String
  hook : String
  deriving DecidableEq, Repr

structure RegistryState where
  generation : Nat
  tools : Tools
  hooks : List ExternalHook
  deriving DecidableEq, Repr

namespace RegistryState

def snapshot (state : RegistryState) : ToolCatalogSnapshot where
  generation := state.generation
  tools := state.tools.definitions

/-- `ToolRegistry::extension_definitions`. -/
def extensionDefinitions (state : RegistryState) (agentId : AgentId) : ToolCatalogSnapshot where
  generation := state.generation
  tools := (state.tools.extensions.filter fun entry => entry.1.1 = agentId).map
    fun entry => entry.2.definition none

/-- The tool that `execute_at_generation` runs. -/
def executeAtGeneration (state : RegistryState) (agentId : AgentId) (name : String)
    (catalogGeneration : Nat) : Except String Tool :=
  if catalogGeneration ≠ state.generation then
    .error "tool catalog changed before the call could run; retry with the new catalog"
  else
    match state.tools.find agentId name with
    | none => .error ("Host does not provide tool " ++ name)
    | some tool => .ok tool

/-- The hooks that `execute_hooks_at_generation` runs, one after the other. -/
def executeHooksAtGeneration (state : RegistryState) (agentId : AgentId) (hook : String)
    (catalogGeneration : Option Nat) : Except String (List ExternalHook) :=
  if catalogGeneration.any (· ≠ state.generation) then
    .error "tool catalog changed before its hook could run; retry with the new catalog"
  else .ok (state.hooks.filter fun item => item.agentId = agentId ∧ item.hook = hook)

end RegistryState

/-! ## Extensions -/

structure RuntimeTool where
  name : String
  description : String
  schema : Value
  deriving DecidableEq, Repr

/-- An extension of an Agent as `runtime_extensions` reads it. -/
structure RuntimeExtension where
  name : String
  command : List String
  hooks : List String
  tools : List RuntimeTool
  agentId : AgentId
  deriving DecidableEq, Repr

namespace RuntimeExtension

def manifests (extension : RuntimeExtension) : List ExtensionManifest :=
  extension.tools.map fun tool =>
    { name := tool.name
      description := tool.description
      command := extension.command
      schema := tool.schema
      agentId := extension.agentId }

def externalHooks (extension : RuntimeExtension) : List ExternalHook :=
  extension.hooks.map fun hook =>
    { agentId := extension.agentId
      extension := extension.name
      command := extension.command
      hook }

end RuntimeExtension

/-- The manifests that `reload_extensions` gives to `apply_extensions`. -/
def collect (extensions : List RuntimeExtension) : Except String (List ExtensionManifest) :=
  let manifests := extensions.flatMap RuntimeExtension.manifests
  if (manifests.map fun manifest => (manifest.agentId, manifest.name)).Nodup then .ok manifests
  else .error "duplicate extension tool name"

/-- The tools of the candidate that `apply_extensions` builds. -/
def candidate : Tools → List ExtensionManifest → Except String Tools
  | tools, [] => .ok tools
  | tools, manifest :: manifests =>
      if (tools.native.lookup manifest.name).isSome then
        .error "extension tool name conflicts with a native MEWS tool"
      else candidate (tools.register manifest.agentId (.external manifest)) manifests

/-- `apply_extensions` before it takes the lock: the tools, once their catalog has been found
to fit a frame. -/
def RegistryState.check (state : RegistryState) (extensions : List RuntimeExtension) :
    Except String Tools :=
  match (collect extensions).bind (candidate Tools.defaults) with
  | .error error => .error error
  | .ok tools =>
      if maxHostFrameBytes < Carrier.inProcess.frameBytes ""
          (HostToHub.toolCatalogChanged ⟨state.generation + 1, tools.definitions⟩).bytes then
        .error "Host protocol frame exceeds 256 KiB"
      else .ok tools

/-- `apply_extensions` under the lock. -/
def RegistryState.apply (state : RegistryState) (tools : Tools) (hooks : List ExternalHook) :
    RegistryState where
  generation := state.generation + 1
  tools
  hooks

/-- The state of `ToolRegistry::with_defaults`: four tools have been registered. -/
def RegistryState.withDefaults : RegistryState where
  generation := 4
  tools := Tools.defaults
  hooks := []

/-! ## Tools that are told apart -/

section Entries

variable {K : Type} [DecidableEq K]

/-- Every key stands once, before the tool of its name. -/
structure Keyed (name : K → String) (entries : List (K × Tool)) : Prop where
  unique : (entries.map Prod.fst).Nodup
  named : ∀ entry ∈ entries, name entry.1 = entry.2.name

variable {name : K → String} {entries : List (K × Tool)}

theorem Keyed.insertEntry (hkeyed : Keyed name entries) {key : K} {tool : Tool}
    (hname : name key = tool.name) : Keyed name (insertEntry key tool entries) where
  unique := by
    rw [ToolRegistry.insertEntry, List.map_cons, List.nodup_cons]
    constructor
    · intro hkey
      obtain ⟨entry, hentry, hsame⟩ := List.mem_map.mp hkey
      exact of_decide_eq_true (List.mem_filter.mp hentry).2 hsame
    · exact hkeyed.unique.sublist ((List.filter_sublist).map Prod.fst)
  named entry hentry := by
    rw [ToolRegistry.insertEntry] at hentry
    rcases List.mem_cons.mp hentry with rfl | hentry
    · exact hname
    · exact hkeyed.named entry (List.mem_filter.mp hentry).1

omit [DecidableEq K] in
theorem mem_of_lookup [BEq K] [LawfulBEq K] {key : K} {tool : Tool} (h : entries.lookup key = some tool) :
    (key, tool) ∈ entries := by
  induction entries with
  | nil => cases h
  | cons entry entries ih =>
      rw [List.lookup_cons] at h
      split at h
      case h_1 hsame =>
          cases h
          rw [eq_of_beq hsame]
          exact List.mem_cons_self
      case h_2 => exact List.mem_cons_of_mem _ (ih h)

omit [DecidableEq K] in
theorem lookup_of_mem [BEq K] [LawfulBEq K] {entry : K × Tool} (hunique : (entries.map Prod.fst).Nodup)
    (hentry : entry ∈ entries) : entries.lookup entry.1 = some entry.2 := by
  induction entries with
  | nil => cases hentry
  | cons first entries ih =>
      obtain ⟨hfirst, hunique⟩ := List.nodup_cons.mp hunique
      rw [List.lookup_cons]
      rcases List.mem_cons.mp hentry with rfl | hentry
      · rw [beq_self_eq_true]
      · have hne : (entry.1 == first.1) = false := by
          apply beq_false_of_ne
          intro hsame
          exact hfirst (hsame ▸ List.mem_map_of_mem hentry)
        rw [hne]
        exact ih hunique hentry

end Entries

/-- Tools that a name tells apart: no Agent has a tool under the name of a native one. -/
structure Tools.Distinct (tools : Tools) : Prop where
  native : Keyed (fun name => name) tools.native
  extensions : Keyed Prod.snd tools.extensions
  apart : ∀ entry ∈ tools.extensions, tools.native.lookup entry.1.2 = none

namespace Tools

variable {tools after : Tools} {agentId : AgentId}

theorem defaults_distinct : defaults.Distinct where
  native := ⟨by decide, by decide⟩
  extensions := ⟨List.nodup_nil, fun _ hentry => absurd hentry List.not_mem_nil⟩
  apart _ hentry := absurd hentry List.not_mem_nil

theorem Distinct.register (hdistinct : tools.Distinct) {tool : Tool}
    (hapart : tools.native.lookup tool.name = none) :
    (tools.register agentId tool).Distinct where
  native := hdistinct.native
  extensions := hdistinct.extensions.insertEntry rfl
  apart entry hentry := by
    rcases List.mem_cons.mp hentry with rfl | hentry
    · exact hapart
    · exact hdistinct.apart entry (List.mem_filter.mp hentry).1

theorem Distinct.candidate {manifests : List ExtensionManifest} (hdistinct : tools.Distinct)
    (h : candidate tools manifests = .ok after) : after.Distinct := by
  induction manifests generalizing tools with
  | nil =>
      cases h
      exact hdistinct
  | cons manifest manifests ih =>
      rw [ToolRegistry.candidate] at h
      split_ifs at h with hnative
      have hapart : tools.native.lookup (Tool.external manifest).name = none :=
        Option.not_isSome_iff_eq_none.mp hnative
      exact ih (hdistinct.register hapart) h

theorem Distinct.find_extension (hdistinct : tools.Distinct)
    {entry : (AgentId × String) × Tool} (hentry : entry ∈ tools.extensions) :
    tools.find entry.1.1 entry.2.name = some entry.2 := by
  rw [find, ← hdistinct.extensions.named entry hentry, Prod.mk.eta,
    lookup_of_mem hdistinct.extensions.unique hentry]
  rfl

/-- What the catalog holds for an Agent is what runs under that name. -/
theorem Distinct.find_definition (hdistinct : tools.Distinct) {definition : ToolDefinition}
    (hmem : definition ∈ tools.definitions)
    (howner : definition.agentId = none ∨ definition.agentId = some agentId) :
    ∃ tool, tools.find agentId definition.name = some tool ∧
      tool.definition definition.agentId = definition := by
  rw [definitions] at hmem
  rcases List.mem_append.mp hmem with hnative | hextension
  · obtain ⟨entry, hentry, rfl⟩ := List.mem_map.mp hnative
    refine ⟨entry.2, ?_, rfl⟩
    have hlookup := lookup_of_mem hdistinct.native.unique hentry
    rw [hdistinct.native.named entry hentry] at hlookup
    have hapart : tools.extensions.lookup (agentId, entry.2.name) = none := by
      cases hfound : tools.extensions.lookup (agentId, entry.2.name) with
      | none => rfl
      | some tool =>
          have hnone := hdistinct.apart _ (mem_of_lookup hfound)
          rw [hlookup] at hnone
          cases hnone
    change (tools.extensions.lookup (agentId, entry.2.name)).or
      (tools.native.lookup entry.2.name) = some entry.2
    rw [hapart, hlookup]
    rfl
  · obtain ⟨entry, hentry, rfl⟩ := List.mem_map.mp hextension
    have hagent : entry.1.1 = agentId := by
      rcases howner with hnone | hsome
      · cases hnone
      · exact Option.some.inj hsome
    rw [← hagent]
    exact ⟨entry.2, hdistinct.find_extension hentry, rfl⟩

end Tools

theorem RegistryState.check_distinct {state : RegistryState}
    {extensions : List RuntimeExtension} {tools : Tools} (h : state.check extensions = .ok tools) :
    tools.Distinct := by
  rw [check] at h
  split at h
  case h_1 => cases h
  case h_2 found hfound =>
      split_ifs at h
      cases h
      cases hcollect : collect extensions with
      | error _ =>
          rw [hcollect] at hfound
          cases hfound
      | ok manifests =>
          rw [hcollect] at hfound
          exact Tools.defaults_distinct.candidate hfound

end Mews.ToolRegistry
