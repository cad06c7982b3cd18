import Mews.Host.AdvertisedTools

/-!
# Catalogs in a run

Whatever copy of a catalog is about, its generation is at most the registry's, and where it is
the same the copy is the registry's own catalog.  A reload replaces the tools under a new
generation, so this stays true of all copies, and a call that is let through by its generation
finds the tools its catalog was made from.
-/

namespace Mews.ToolRegistry

open Protocol HostProtocol

/-! ## Copies of a catalog -/

/-- A copy that is no later than the registry, and the registry's own where it is as late. -/
def Current (catalog : ToolCatalogSnapshot) (state : RegistryState) : Prop :=
  catalog.generation ≤ state.generation ∧
    (catalog.generation = state.generation → catalog = state.snapshot)

theorem current_snapshot (state : RegistryState) : Current state.snapshot state :=
  ⟨Nat.le_refl _, fun _ => rfl⟩

theorem current_of_lt {catalog : ToolCatalogSnapshot} {state : RegistryState}
    (h : catalog.generation < state.generation) : Current catalog state :=
  ⟨Nat.le_of_lt h, fun hsame => absurd hsame (Nat.ne_of_lt h)⟩

theorem Current.later {catalog : ToolCatalogSnapshot} {state after : RegistryState}
    (hcurrent : Current catalog state) (h : state.generation < after.generation) :
    Current catalog after :=
  current_of_lt (Nat.lt_of_le_of_lt hcurrent.1 h)

namespace Capture

variable {capture : Capture} {state after : RegistryState}

/-- The bridge answers calls of this name itself. -/
def Answers (capture : Capture) (name : String) : Prop :=
  capture.origin = .mcp ∧ isReservedAcpSkillTool name = true

/-- While the registry is at the generation of the catalog, what the catalog holds runs. -/
def Agrees (capture : Capture) (state : RegistryState) : Prop :=
  capture.catalog.generation ≤ state.generation ∧
    (capture.catalog.generation = state.generation →
      ∀ definition ∈ capture.catalog.tools, ¬capture.Answers definition.name →
        ∃ tool, state.tools.find capture.agentId definition.name = some tool ∧
          tool.definition none = definition)

/-- The catalog holds the definition of the tool under the name, and no other. -/
structure Holds (capture : Capture) (name : String) (tool : Tool) : Prop where
  named : tool.name = name
  definition : tool.definition none ∈ capture.catalog.tools
  only : ∀ definition ∈ capture.catalog.tools, definition.name = name →
    definition = tool.definition none

/-- A catalog of the Hub is one that the Host had published, or the one that the connection
was created with while nothing of the Host had arrived. -/
def Published (capture : Capture) : Prop :=
  ∀ initial published received, capture.origin = .hub initial published received →
    capture.snapshot ∈ published ∨ received = [] ∧ capture.snapshot = initial

theorem Agrees.later (hagrees : capture.Agrees state)
    (h : state.generation < after.generation) : capture.Agrees after :=
  ⟨Nat.le_of_lt (Nat.lt_of_le_of_lt hagrees.1 h), fun hsame =>
    absurd hsame (Nat.ne_of_lt (Nat.lt_of_le_of_lt hagrees.1 h))⟩

end Capture

/-- What the call has been validated against. -/
def ToolRequest.Validated (request : ToolRequest) : Prop :=
  request.catalogGeneration = request.capture.catalog.generation ∧
    ¬request.capture.Answers request.name ∧
    ∃ definition ∈ request.capture.catalog.tools, definition.name = request.name

/-- The tool that a call runs is the one its catalog holds. -/
theorem ToolRequest.Validated.holds {request : ToolRequest} {state : RegistryState} {tool : Tool}
    (hvalidated : request.Validated) (hagrees : request.capture.Agrees state)
    (h : state.executeAtGeneration request.capture.agentId request.name
      request.catalogGeneration = .ok tool) :
    request.capture.Holds request.name tool := by
  obtain ⟨hgeneration, hanswers, definition, hmem, hname⟩ := hvalidated
  rw [RegistryState.executeAtGeneration] at h
  split_ifs at h with hstale
  have hsame : request.capture.catalog.generation = state.generation := by
    rw [← hgeneration]
    exact Decidable.not_not.mp hstale
  split at h
  case h_1 => cases h
  case h_2 found hfound =>
      cases h
      have hruns : ∀ other ∈ request.capture.catalog.tools, other.name = request.name →
          other = tool.definition none := by
        intro other hother hothername
        obtain ⟨runs, hfind, hdefinition⟩ :=
          hagrees.2 hsame other hother (by rwa [hothername])
        rw [hothername, hfound] at hfind
        cases hfind
        exact hdefinition.symm
      have hdefinition := hruns definition hmem hname
      rw [hdefinition] at hmem hname
      exact ⟨hname, hmem, hruns⟩

/-! ## Reading a catalog -/

section Reading

variable {library : Libraries} {schemas : Schemas} {state : RegistryState} {agentId : AgentId}
  {allowedTools : List String}

theorem mem_of_ensureCatalogTools {tools visible : List ToolDefinition}
    (h : NativeTurn.ensureCatalogTools library tools visible = .ok ()) :
    ∀ tool ∈ visible, tool ∈ tools := by
  induction visible with
  | nil => exact fun _ htool => absurd htool List.not_mem_nil
  | cons first visible ih =>
      rw [NativeTurn.ensureCatalogTools] at h
      split at h
      case h_1 => cases h
      case h_2 source hsource =>
          split_ifs at h with hchanged
          intro tool htool
          rcases List.mem_cons.mp htool with rfl | htool
          · rw [← Decidable.not_not.mp hchanged]
            exact List.mem_of_find?_eq_some hsource
          · exact ih h tool htool

theorem find_of_mem_visibleTools (hdistinct : state.tools.Distinct) {definition : ToolDefinition}
    (h : definition ∈ visibleTools agentId allowedTools state.tools.definitions) :
    ∃ tool, state.tools.find agentId definition.name = some tool ∧
      tool.definition none = definition := by
  obtain ⟨source, hsource, rfl⟩ := List.mem_map.mp h
  obtain ⟨hmem, hvisible⟩ := List.mem_filter.mp hsource
  rw [Bool.and_eq_true, Bool.or_eq_true, decide_eq_true_eq, decide_eq_true_eq] at hvisible
  obtain ⟨tool, hfind, hdefinition⟩ := hdistinct.find_definition hmem hvisible.1
  refine ⟨tool, hfind, ?_⟩
  rw [← hdefinition]
  rfl

theorem captureTurn_agrees {link : Link} {visible : List ToolDefinition} {capture : Capture}
    (hdistinct : state.tools.Distinct) (hcurrent : Current link.tools state)
    (h : System.captureTurn schemas link agentId allowedTools visible = some capture) :
    capture.Agrees state := by
  simp only [System.captureTurn] at h
  split at h
  case h_1 hensure _ =>
      cases h
      refine ⟨hcurrent.1, fun hsame definition hmem _ => ?_⟩
      have hvisible := mem_of_ensureCatalogTools hensure definition hmem
      rw [hcurrent.2 hsame] at hvisible
      exact find_of_mem_visibleTools hdistinct hvisible
  case h_2 => cases h

theorem captureTurn_published {link : Link} {visible : List ToolDefinition} {capture : Capture}
    (hlink : link.tools ∈ link.published ∨ link.received = [] ∧ link.tools = link.initial)
    (h : System.captureTurn schemas link agentId allowedTools visible = some capture) :
    capture.Published := by
  simp only [System.captureTurn] at h
  split at h
  case h_1 =>
      cases h
      intro initial published received horigin
      cases horigin
      exact hlink
  case h_2 => cases h

theorem reserved_of_mem_skillTools {skills : Bool} {definition : ToolDefinition}
    (h : definition ∈ if skills = true then skillTools else []) :
    isReservedAcpSkillTool definition.name = true := by
  split_ifs at h
  · have hall : ∀ tool ∈ skillTools, isReservedAcpSkillTool tool.name = true := by decide
    exact hall definition h
  · cases h

theorem captureBridge_agrees {skills : Bool} {capture : Capture} (hdistinct : state.tools.Distinct)
    (h : System.captureBridge schemas state agentId allowedTools skills = some capture) :
    capture.Agrees state ∧ capture.Published := by
  simp only [System.captureBridge] at h
  split at h
  · cases h
  · split at h
    case h_1 =>
        cases h
        refine ⟨⟨Nat.le_refl _, fun _ definition hmem hanswers => ?_⟩, fun _ _ _ horigin => ?_⟩
        · rcases List.mem_append.mp hmem with hbridged | hskill
          · obtain ⟨hmem, _⟩ := List.mem_filter.mp (List.mem_filter.mp hbridged).1
            obtain ⟨entry, hentry, rfl⟩ := List.mem_map.mp hmem
            obtain ⟨hentry, howner⟩ := List.mem_filter.mp hentry
            have hfind := hdistinct.find_extension hentry
            rw [of_decide_eq_true howner] at hfind
            exact ⟨entry.2, hfind, rfl⟩
          · exact absurd ⟨rfl, reserved_of_mem_skillTools hskill⟩ hanswers
        · cases horigin
    case h_2 => cases h

theorem validate_validated {capture : Capture} {name : String} {arguments : Value}
    {request : ToolRequest} (h : System.validate schemas capture name arguments = some request) :
    request.capture = capture ∧ request.Validated := by
  rw [System.validate] at h
  split at h
  case h_1 => cases h
  case h_2 definition hfind =>
      split_ifs at h with hvalid hanswers
      cases h
      have hname := List.find?_some hfind
      exact ⟨rfl, rfl, hanswers, definition, List.mem_of_find?_eq_some hfind,
        of_decide_eq_true hname⟩

end Reading

/-! ## What every run keeps -/

namespace Link

/-- The catalog that the Hub will hold once everything sent has been received. -/
def newest (link : Link) : ToolCatalogSnapshot := link.inFlight.getLast?.getD link.tools

/-- What the forwarder has seen of the catalogs is on its way. -/
def Forwards (link : Link) (registry : Registry) : Prop :=
  match link.forwarder with
  | .unsubscribed => True
  | .waiting seen =>
      seen ≤ registry.version ∧ (seen = registry.version → link.newest = registry.catalog)
  | .noticed seen => seen ≤ registry.version
  | .sending seen tools =>
      seen ≤ registry.version ∧ Current tools registry.state ∧
        (seen = registry.version → tools = registry.catalog)

structure Sound (link : Link) (registry : Registry) : Prop where
  tools : Current link.tools registry.state
  inFlight : ∀ tools ∈ link.inFlight, Current tools registry.state ∧ tools ∈ link.published
  history : link.tools ∈ link.published ∨ link.received = [] ∧ link.tools = link.initial
  forwards : link.Forwards registry

variable {link after : Link} {registry : Registry}

theorem Sound.later (hsound : link.Sound registry) {state : RegistryState}
    (h : registry.state.generation < state.generation) :
    link.Sound { registry with state } where
  tools := hsound.tools.later h
  inFlight tools hmem := ⟨(hsound.inFlight tools hmem).1.later h, (hsound.inFlight tools hmem).2⟩
  history := hsound.history
  forwards := by
    have hforwards := hsound.forwards
    rw [Forwards] at hforwards ⊢
    split
    case h_1 => trivial
    case h_2 heq =>
        rw [heq] at hforwards
        exact hforwards
    case h_3 heq =>
        rw [heq] at hforwards
        exact hforwards
    case h_4 heq =>
        rw [heq] at hforwards
        exact ⟨hforwards.1, hforwards.2.1.later h, hforwards.2.2⟩

/-- A new version of the catalog has been seen by nobody. -/
theorem Sound.publish (hsound : link.Sound registry) (catalog : ToolCatalogSnapshot) :
    link.Sound { registry with catalog, version := registry.version + 1 } where
  tools := hsound.tools
  inFlight := hsound.inFlight
  history := hsound.history
  forwards := by
    have hforwards := hsound.forwards
    rw [Forwards] at hforwards ⊢
    split
    case h_1 => trivial
    case h_2 heq =>
        rw [heq] at hforwards
        exact ⟨Nat.le_succ_of_le hforwards.1, fun hsame =>
          absurd hforwards.1 (by rw [hsame]; exact Nat.not_succ_le_self _)⟩
    case h_3 heq =>
        rw [heq] at hforwards
        exact Nat.le_succ_of_le hforwards
    case h_4 heq =>
        rw [heq] at hforwards
        exact ⟨Nat.le_succ_of_le hforwards.1, hforwards.2.1, fun hsame =>
          absurd hforwards.1 (by rw [hsame]; exact Nat.not_succ_le_self _)⟩

theorem Sound.step (hsound : link.Sound registry) (hcatalog : Current registry.catalog registry.state)
    {action : LinkAction} (h : System.stepLink registry link action = some after) :
    after.Sound registry := by
  have hforwards := hsound.forwards
  cases action with
  | subscribe =>
      simp only [System.stepLink] at h
      split at h
      case h_1 =>
          cases h
          exact ⟨hsound.tools, hsound.inFlight, hsound.history, Nat.le_refl _, hcatalog,
            fun _ => rfl⟩
      case h_2 => cases h
  | notice =>
      simp only [System.stepLink] at h
      split at h
      case h_1 =>
          split_ifs at h
          cases h
          exact ⟨hsound.tools, hsound.inFlight, hsound.history, Nat.le_refl _⟩
      case h_2 => cases h
  | borrow =>
      simp only [System.stepLink] at h
      split at h
      case h_1 heq =>
          cases h
          rw [Forwards, heq] at hforwards
          exact ⟨hsound.tools, hsound.inFlight, hsound.history, hforwards, hcatalog, fun _ => rfl⟩
      case h_2 => cases h
  | send =>
      simp only [System.stepLink] at h
      split at h
      case h_1 seen tools heq =>
          cases h
          rw [Forwards, heq] at hforwards
          refine ⟨hsound.tools, fun sent hsent => ?_, ?_, hforwards.1, fun hsame => ?_⟩
          · rcases List.mem_append.mp hsent with hsent | hsent
            · exact ⟨(hsound.inFlight sent hsent).1,
                List.mem_cons_of_mem _ (hsound.inFlight sent hsent).2⟩
            · cases List.mem_singleton.mp hsent
              exact ⟨hforwards.2.1, List.mem_cons_self⟩
          · exact hsound.history.imp_left (List.mem_cons_of_mem _)
          · rw [newest, List.getLast?_concat]
            exact hforwards.2.2 hsame
      case h_2 => cases h
  | receive =>
      simp only [System.stepLink] at h
      split at h
      case h_1 tools inFlight heq =>
          cases h
          have hreceived := hsound.inFlight tools (by rw [heq]; exact List.mem_cons_self)
          refine ⟨hreceived.1, fun sent hsent => ?_, Or.inl hreceived.2, ?_⟩
          · exact hsound.inFlight sent (by rw [heq]; exact List.mem_cons_of_mem _ hsent)
          · have hnewest : inFlight.getLast?.getD tools = link.newest := by
              rw [newest, heq, List.getLast?_cons]
              rfl
            rw [Forwards] at hforwards ⊢
            simp only [newest] at hforwards hnewest ⊢
            rw [hnewest]
            exact hforwards
      case h_2 => cases h

end Link

/-- The registry since the reload has begun. -/
def Reload.Sound (reload : Reload) (registry : Registry) : Prop :=
  match reload.stage with
  | .starting | .loading _ | .loaded _ _ =>
      registry.state = reload.started ∧ registry.catalog = registry.state.snapshot
  | .checked _ tools _ =>
      registry.state = reload.started ∧ registry.catalog = registry.state.snapshot ∧
        tools.Distinct
  | .applied _ snapshot => snapshot = registry.state.snapshot
  | .published _ => registry.catalog = registry.state.snapshot

namespace System

variable {schemas : Schemas} {system after : System}

structure Sound (system : System) : Prop where
  distinct : system.registry.state.tools.Distinct
  generation : 0 < system.registry.state.generation
  idle : system.reload = none → system.registry.catalog = system.registry.state.snapshot
  reload : ∀ reload, system.reload = some reload → reload.Sound system.registry
  catalog : Current system.registry.catalog system.registry.state
  link : ∀ link, system.link = some link → link.Sound system.registry
  captures : ∀ capture ∈ system.captures,
    capture.Agrees system.registry.state ∧ capture.Published
  requests : ∀ request ∈ system.requests,
    request.capture.Agrees system.registry.state ∧ request.Validated
  ran : ∀ entry ∈ system.ran, entry.1.capture.Holds entry.1.name entry.2

theorem initial_sound : initial.Sound where
  distinct := Tools.defaults_distinct
  generation := by decide
  idle _ := rfl
  reload _ hnone := by cases hnone
  catalog := current_snapshot _
  link _ hnone := by cases hnone
  captures _ hmem := absurd hmem List.not_mem_nil
  requests _ hmem := absurd hmem List.not_mem_nil
  ran _ hmem := absurd hmem List.not_mem_nil

theorem Sound.abandon (hsound : system.Sound)
    (hcatalog : system.registry.catalog = system.registry.state.snapshot) :
    ({ system with reload := none } : System).Sound :=
  { hsound with
    idle := fun _ => hcatalog
    reload := fun _ hnone => by cases hnone }

theorem Sound.advance (hsound : system.Sound) {next : Reload}
    (hnext : next.Sound system.registry) : ({ system with reload := some next } : System).Sound :=
  { hsound with
    idle := fun hnone => by cases hnone
    reload := fun other hother => by
      cases hother
      exact hnext }

theorem Sound.stepReload (hsound : system.Sound) {reload : Reload} {action : ReloadAction}
    (hbefore : system.reload = some reload) (h : system.stepReload reload action = some after) :
    after.Sound := by
  have hreload := hsound.reload reload hbefore
  cases action with
  | fingerprint fingerprint =>
      simp only [System.stepReload] at h
      split at h
      case h_1 hstage =>
          cases h
          rw [Reload.Sound, hstage] at hreload
          exact hsound.abandon hreload.2
      case h_2 hstage =>
          cases h
          rw [Reload.Sound, hstage] at hreload
          exact hsound.advance hreload
      case h_3 => cases h
  | load extensions =>
      simp only [System.stepReload] at h
      split at h
      case h_1 hstage =>
          cases h
          rw [Reload.Sound, hstage] at hreload
          exact hsound.abandon hreload.2
      case h_2 hstage =>
          cases h
          rw [Reload.Sound, hstage] at hreload
          exact hsound.advance hreload
      case h_3 => cases h
  | check =>
      simp only [System.stepReload] at h
      split at h
      case h_1 hstage =>
          rw [Reload.Sound, hstage] at hreload
          split at h
          case h_1 =>
              cases h
              exact hsound.abandon hreload.2
          case h_2 hcheck =>
              cases h
              exact hsound.advance ⟨hreload.1, hreload.2, RegistryState.check_distinct hcheck⟩
      case h_2 => cases h
  | apply =>
      simp only [System.stepReload] at h
      split at h
      case h_1 tools hooks hstage =>
          cases h
          rw [Reload.Sound, hstage] at hreload
          have hlater : system.registry.state.generation <
              (system.registry.state.apply tools hooks).generation := Nat.lt_succ_self _
          exact
            { distinct := hreload.2.2
              generation := Nat.succ_pos _
              idle := fun hnone => by cases hnone
              reload := fun next hnext => by
                cases hnext
                rfl
              catalog := hsound.catalog.later hlater
              link := fun link hlink => (hsound.link link hlink).later hlater
              captures := fun capture hmem =>
                ⟨(hsound.captures capture hmem).1.later hlater, (hsound.captures capture hmem).2⟩
              requests := fun request hmem =>
                ⟨(hsound.requests request hmem).1.later hlater, (hsound.requests request hmem).2⟩
              ran := hsound.ran }
      case h_2 => cases h
  | publish =>
      simp only [System.stepReload] at h
      split at h
      case h_1 snapshot hstage =>
          cases h
          rw [Reload.Sound, hstage] at hreload
          exact
            { hsound with
              idle := fun hnone => by cases hnone
              reload := fun next hnext => by
                cases hnext
                exact hreload
              catalog := by
                rw [hreload]
                exact current_snapshot _
              link := fun link hlink => (hsound.link link hlink).publish snapshot }
      case h_2 => cases h
  | record =>
      simp only [System.stepReload] at h
      split at h
      case h_1 hstage =>
          cases h
          rw [Reload.Sound, hstage] at hreload
          exact
            { hsound with
              idle := fun _ => hreload
              reload := fun _ hnone => by cases hnone
              link := fun link hlink =>
                ⟨(hsound.link link hlink).tools, (hsound.link link hlink).inFlight,
                  (hsound.link link hlink).history, (hsound.link link hlink).forwards⟩ }
      case h_2 => cases h

theorem Sound.step (hsound : system.Sound) {action : Action}
    (h : system.step schemas action = some after) : after.Sound := by
  cases action with
  | reload =>
      simp only [System.step] at h
      split at h
      case h_1 hnone =>
          cases h
          exact hsound.advance ⟨rfl, hsound.idle hnone⟩
      case h_2 => cases h
  | reloading action =>
      obtain ⟨reload, hreload, hstep⟩ := Option.bind_eq_some_iff.mp h
      exact hsound.stepReload hreload hstep
  | connect inProcess =>
      simp only [System.step] at h
      split at h
      case h_1 =>
          cases h
          refine { hsound with link := fun link hlink => ?_ }
          cases hlink
          refine ⟨?_, fun _ hmem => absurd hmem List.not_mem_nil, Or.inr ⟨rfl, rfl⟩, trivial⟩
          dsimp only
          split_ifs
          · exact current_snapshot _
          · exact current_of_lt hsound.generation
      case h_2 => cases h
  | link action =>
      obtain ⟨next, hnext, rfl⟩ := Option.map_eq_some_iff.mp h
      obtain ⟨link, hlink, hstep⟩ := Option.bind_eq_some_iff.mp hnext
      refine { hsound with link := fun other hother => ?_ }
      cases hother
      exact (hsound.link link hlink).step hsound.catalog hstep
  | disconnect =>
      cases h
      exact { hsound with link := fun _ hnone => by cases hnone }
  | captureTurn agentId allowedTools visible =>
      simp only [System.step] at h
      split at h
      case h_1 => cases h
      case h_2 link hlink =>
          obtain ⟨capture, hcapture, rfl⟩ := Option.map_eq_some_iff.mp h
          refine { hsound with captures := fun other hother => ?_ }
          rcases List.mem_cons.mp hother with rfl | hother
          · exact ⟨captureTurn_agrees hsound.distinct (hsound.link link hlink).tools hcapture,
              captureTurn_published (hsound.link link hlink).history hcapture⟩
          · exact hsound.captures other hother
  | captureBridge agentId allowedTools skills =>
      obtain ⟨capture, hcapture, rfl⟩ := Option.map_eq_some_iff.mp h
      refine { hsound with captures := fun other hother => ?_ }
      rcases List.mem_cons.mp hother with rfl | hother
      · exact captureBridge_agrees hsound.distinct hcapture
      · exact hsound.captures other hother
  | call capture name arguments =>
      simp only [System.step] at h
      split_ifs at h with hmem
      obtain ⟨request, hrequest, rfl⟩ := Option.map_eq_some_iff.mp h
      obtain ⟨hcapture, hvalidated⟩ := validate_validated hrequest
      refine { hsound with requests := fun other hother => ?_ }
      rcases List.mem_cons.mp hother with rfl | hother
      · rw [hcapture]
        exact ⟨(hsound.captures capture hmem).1, hvalidated⟩
      · exact hsound.requests other hother
  | execute request =>
      simp only [System.step] at h
      split_ifs at h with hmem
      split at h
      case h_1 =>
          cases h
          exact { hsound with
            requests := fun other hother => hsound.requests other (List.mem_of_mem_erase hother) }
      case h_2 tool htool =>
          cases h
          refine { hsound with
            requests := fun other hother => hsound.requests other (List.mem_of_mem_erase hother)
            ran := fun entry hentry => ?_ }
          rcases List.mem_cons.mp hentry with rfl | hentry
          · exact (hsound.requests request hmem).2.holds (hsound.requests request hmem).1 htool
          · exact hsound.ran entry hentry
  | hook agentId hook catalogGeneration =>
      simp only [System.step] at h
      split at h
      · cases h
      · cases h
        exact hsound

theorem Sound.run (hsound : system.Sound) {actions : List Action}
    (h : system.run schemas actions = some after) : after.Sound := by
  induction actions generalizing system with
  | nil =>
      cases h
      exact hsound
  | cons action actions ih =>
      obtain ⟨next, hstep, hrun⟩ := Option.bind_eq_some_iff.mp h
      exact ih (hsound.step hstep) hrun

/-! ## Generations -/

theorem stepReload_generation {reload : Reload} {action : ReloadAction}
    (h : system.stepReload reload action = some after) :
    after.registry.state = system.registry.state ∨
      after.registry.state.generation = system.registry.state.generation + 1 := by
  cases action with
  | fingerprint fingerprint | load extensions =>
      simp only [System.stepReload] at h
      split at h
      · cases h
        exact Or.inl rfl
      · cases h
        exact Or.inl rfl
      · cases h
  | check =>
      simp only [System.stepReload] at h
      split at h
      · split at h
        · cases h
          exact Or.inl rfl
        · cases h
          exact Or.inl rfl
      · cases h
  | apply =>
      simp only [System.stepReload] at h
      split at h
      · cases h
        exact Or.inr rfl
      · cases h
  | publish | record =>
      simp only [System.stepReload] at h
      split at h
      · cases h
        exact Or.inl rfl
      · cases h

theorem step_generation {action : Action} (h : system.step schemas action = some after) :
    after.registry.state = system.registry.state ∨
      after.registry.state.generation = system.registry.state.generation + 1 := by
  cases action with
  | reloading action =>
      obtain ⟨reload, _, hstep⟩ := Option.bind_eq_some_iff.mp h
      exact stepReload_generation hstep
  | reload | connect inProcess =>
      simp only [System.step] at h
      split at h
      · cases h
        exact Or.inl rfl
      · cases h
  | link action | captureBridge agentId allowedTools skills =>
      obtain ⟨_, _, rfl⟩ := Option.map_eq_some_iff.mp h
      exact Or.inl rfl
  | disconnect =>
      cases h
      exact Or.inl rfl
  | captureTurn agentId allowedTools visible =>
      simp only [System.step] at h
      split at h
      · cases h
      · obtain ⟨_, _, rfl⟩ := Option.map_eq_some_iff.mp h
        exact Or.inl rfl
  | call capture name arguments =>
      simp only [System.step] at h
      split_ifs at h
      obtain ⟨_, _, rfl⟩ := Option.map_eq_some_iff.mp h
      exact Or.inl rfl
  | execute request =>
      simp only [System.step] at h
      split_ifs at h
      split at h
      · cases h
        exact Or.inl rfl
      · cases h
        exact Or.inl rfl
  | hook agentId hook catalogGeneration =>
      simp only [System.step] at h
      split at h
      · cases h
      · cases h
        exact Or.inl rfl

/-- A registry that is still at the same generation still holds the same. -/
theorem run_generation {actions : List Action} (h : system.run schemas actions = some after) :
    system.registry.state.generation ≤ after.registry.state.generation ∧
      (system.registry.state.generation = after.registry.state.generation →
        system.registry.state = after.registry.state) := by
  induction actions generalizing system with
  | nil =>
      cases h
      exact ⟨Nat.le_refl _, fun _ => rfl⟩
  | cons action actions ih =>
      obtain ⟨next, hstep, hrun⟩ := Option.bind_eq_some_iff.mp h
      obtain ⟨hle, hsame⟩ := ih hrun
      rcases step_generation hstep with hkept | hnext
      · rw [hkept] at hle hsame
        exact ⟨hle, hsame⟩
      · rw [hnext] at hle
        exact ⟨Nat.le_of_succ_le hle, fun heq => absurd hle (by rw [heq]; exact Nat.not_succ_le_self _)⟩

/-! ## Tools run as advertised -/

/-- No reload runs, and every catalog has been received. -/
def Quiescent (system : System) (link : Link) : Prop :=
  system.reload = none ∧ system.link = some link ∧ link.inFlight = [] ∧
    link.forwarder = .waiting system.registry.version

/-- What holds in every state of a run. -/
structure Advertised (schemas : Schemas) (system : System) : Prop where
  /-- A tool runs only for a call whose catalog holds its definition. -/
  ran : ∀ entry ∈ system.ran, entry.1.capture.Holds entry.1.name entry.2
  captured : ∀ capture ∈ system.captures, capture.Published
  /-- A reload that ends before it has recorded its fingerprint has failed. -/
  failed : ∀ reload action after, system.reload = some reload →
    system.step schemas (.reloading action) = some after → after.reload = none →
    action ≠ .record →
    after.registry.state = reload.started ∧ after.registry.catalog = reload.started.snapshot
  current : ∀ link, system.Quiescent link → link.tools = system.registry.state.snapshot

theorem Sound.failed (hsound : system.Sound) {reload : Reload} {action : ReloadAction}
    (hreload : system.reload = some reload) (h : system.step schemas (.reloading action) = some after)
    (hnone : after.reload = none) (hrecord : action ≠ .record) :
    after.registry.state = reload.started ∧ after.registry.catalog = reload.started.snapshot := by
  have hstarted := hsound.reload reload hreload
  have hended : ∀ {registry : Registry}, registry.state = reload.started ∧
      registry.catalog = registry.state.snapshot →
      registry.state = reload.started ∧ registry.catalog = reload.started.snapshot := by
    rintro registry ⟨hstate, hcatalog⟩
    rw [hstate] at hcatalog
    exact ⟨hstate, hcatalog⟩
  simp only [System.step, hreload, Option.bind_some] at h
  cases action with
  | fingerprint fingerprint | load extensions =>
      simp only [System.stepReload] at h
      split at h
      case h_1 hstage =>
          cases h
          rw [Reload.Sound, hstage] at hstarted
          exact hended hstarted
      case h_2 =>
          cases h
          cases hnone
      case h_3 => cases h
  | check =>
      simp only [System.stepReload] at h
      split at h
      case h_1 hstage =>
          rw [Reload.Sound, hstage] at hstarted
          split at h
          · cases h
            exact hended hstarted
          · cases h
            cases hnone
      case h_2 => cases h
  | apply | publish =>
      simp only [System.stepReload] at h
      split at h
      · cases h
        cases hnone
      · cases h
  | record => exact absurd rfl hrecord

theorem Sound.current (hsound : system.Sound) {link : Link} (hquiescent : system.Quiescent link) :
    link.tools = system.registry.state.snapshot := by
  obtain ⟨hidle, hlink, hreceived, hwaiting⟩ := hquiescent
  have hforwards := (hsound.link link hlink).forwards
  rw [Link.Forwards, hwaiting] at hforwards
  have hnewest := hforwards.2 rfl
  rw [Link.newest, hreceived] at hnewest
  exact hnewest.trans (hsound.idle hidle)

theorem tools_advertised {first second : List Action} {earlier later : System}
    (hfirst : initial.run schemas first = some earlier)
    (hsecond : earlier.run schemas second = some later) :
    later.Advertised schemas ∧
      (earlier.registry.state.snapshot.generation = later.registry.state.snapshot.generation →
        earlier.registry.state.snapshot = later.registry.state.snapshot) := by
  have hsound := (initial_sound.run hfirst).run hsecond
  refine ⟨⟨hsound.ran, fun capture hmem => (hsound.captures capture hmem).2,
    fun _ _ _ hreload hstep hnone hrecord => hsound.failed hreload hstep hnone hrecord,
    fun _ hquiescent => hsound.current hquiescent⟩, fun hsame => ?_⟩
  rw [(run_generation hsecond).2 hsame]

end System

/-! ## A Host that has just connected -/

namespace FirstCatalog

def schemas : Schemas where
  library :=
    { readBack := some
      fromSlice := fun _ => none
      fromValue := fun _ => none
      toStringPretty := fun _ => ""
      validSchema := fun _ => true
      debug := fun text => text }
  validates := fun _ _ => true

def agentId : AgentId := ⟨"1"⟩

/-- The Host loads its extensions, of which there are none, and sends `Ready`. -/
def connects : List Action :=
  [.reload, .reloading (.fingerprint (some "")), .reloading (.load (some [])), .reloading .check,
    .reloading .apply, .reloading .publish, .reloading .record, .connect false, .link .subscribe,
    .link .send]

def readTool : ToolDefinition := Tool.read.definition none

/-- What a Turn has captured that reads a file after `Ready` has arrived. -/
def captured : Capture where
  agentId
  origin :=
    .hub ⟨0, []⟩ [(RegistryState.withDefaults.apply .defaults []).snapshot]
      [(RegistryState.withDefaults.apply .defaults []).snapshot]
  snapshot := (RegistryState.withDefaults.apply .defaults []).snapshot
  catalog := ⟨5, [readTool]⟩

def arguments : Value := .object [("path", .string "notes.txt")]

def reads : List Action :=
  [.link .receive, .captureTurn agentId ["*"] [readTool], .call captured "read" arguments,
    .execute ⟨captured, "read", arguments, 5⟩]

/-- A Turn reads a file as its catalog says. -/
theorem read_advertised : ∃ earlier later, System.initial.run schemas connects = some earlier ∧
    earlier.run schemas reads = some later ∧ later.ran ≠ [] ∧ later.Advertised schemas := by
  have hruns : ((System.initial.run schemas connects).bind fun earlier =>
      earlier.run schemas reads).any (fun later => later.ran ≠ []) = true := by
    decide
  obtain ⟨later, hrun, hran⟩ := (Option.any_eq_true _ _).mp hruns
  obtain ⟨earlier, hfirst, hsecond⟩ := Option.bind_eq_some_iff.mp hrun
  exact ⟨earlier, later, hfirst, hsecond, of_decide_eq_true hran,
    (System.tools_advertised hfirst hsecond).1⟩

def unpublished (capture : Capture) : Bool :=
  match capture.origin with
  | .hub _ published _ => decide (published ≠ [] ∧ capture.snapshot ∉ published)
  | .mcp => false

/-- A Turn that begins before `Ready` arrives captures a catalog that the Host has never
published. -/
theorem capture_unpublished : ∃ actions system, System.initial.run schemas actions = some system ∧
    ∃ capture ∈ system.captures, ∃ initial published received,
      capture.origin = .hub initial published received ∧ published ≠ [] ∧
        capture.snapshot ∉ published := by
  have hruns : (System.initial.run schemas (connects ++ [.captureTurn agentId ["*"] []])).any
      (fun system => system.captures.any unpublished) = true := by
    decide
  obtain ⟨system, hrun, hany⟩ := (Option.any_eq_true _ _).mp hruns
  obtain ⟨capture, hmem, hcapture⟩ := List.any_eq_true.mp hany
  refine ⟨_, system, hrun, capture, hmem, ?_⟩
  rw [unpublished] at hcapture
  split at hcapture
  case h_1 initial published received horigin =>
      exact ⟨initial, published, received, horigin, of_decide_eq_true hcapture⟩
  case h_2 => cases hcapture

end FirstCatalog

end Mews.ToolRegistry
