import Mews.Core.Runs
import Mews.Router.Providers

/-!
# The messages of Anthropic

A request is encoded as messages whose roles alternate, with the names of the tools as
Claude Code writes them where the credential asks for it.  In a response the names are
looked up in the catalog without regard to case.
-/

namespace Mews.Anthropic

open Protocol HostProtocol

inductive Role where
  | user
  | assistant
  deriving DecidableEq, Repr

def Role.asStr : Role → String
  | .user => "user"
  | .assistant => "assistant"

def claudeCodeToolName (name : String) : String :=
  match toAsciiLowercase name with
  | "read" => "Read"
  | "write" => "Write"
  | "edit" => "Edit"
  | "bash" => "Bash"
  | _ => name

/-- The name that is sent for a tool of the catalog. -/
def sentToolName (oauth : Bool) (name : String) : String :=
  if oauth then claudeCodeToolName name else name

/-! ## Requests

`toStr` is `serde_json::to_string`.
-/

section Requests

variable (toStr : Value → String) (model : String) (oauth : Bool)

/-- The role and the block that a message is encoded as. -/
def block (message : ModelMessage) : Option (Role × Value) :=
  match message.content with
  | .text text =>
      some (if message.role = .user then .user else .assistant,
        .object [("text", .string text), ("type", .string "text")])
  | .toolCall callId tool arguments _ =>
      some (.assistant, .object [("id", .string callId), ("input", arguments),
        ("name", .string (sentToolName oauth tool)), ("type", .string "tool_use")])
  | .toolResult callId _ result isError uncertain =>
      some (.user, .object
        [("content", .string (toStr (toolResultForModel result isError uncertain))),
          ("is_error", .bool isError), ("tool_use_id", .string callId),
          ("type", .string "tool_result")])
  | .providerState provider stateModel data =>
      if provider = "anthropic" ∧ stateModel = model then some (.assistant, data) else none

/-- The encoded messages, by role and content. -/
def messages (messages : List ModelMessage) : List (Role × List Value) :=
  Runs.merge (messages.filterMap (block toStr model oauth))

/-- A message as it is sent. -/
def messageValue (message : Role × List Value) : Value :=
  .object [("content", .array message.2), ("role", .string message.1.asStr)]

end Requests

/-! ## Responses -/

section Responses

variable (model : String) (tools : List ToolDefinition)

/-- The name in the catalog of a tool that is called by this name. -/
def catalogName (name : String) : Option String :=
  (tools.find? fun tool => eqIgnoreAsciiCase tool.name name).map (·.name)

def parsePart (part : Value) : Option ModelPart :=
  match part.text "type" with
  | some "text" => (part.text "text").map .text
  | some "tool_use" => do
      let id ← part.text "id"
      let name ← ((part.text "name").bind (catalogName tools)).or (part.text "name")
      let arguments ← part.get "input"
      return .toolCall id name arguments none
  | some "thinking" => (part.text "thinking").map fun text => .reasoning text (part.text "signature")
  | some "redacted_thinking" => some (.providerState "anthropic" model part)
  | _ => none

def usage (response : Value) : Option ModelUsage :=
  (response.get "usage").map fun usage =>
    { inputTokens := ((usage.get "input_tokens").bind Value.asU64).getD 0
      outputTokens := ((usage.get "output_tokens").bind Value.asU64).getD 0
      cachedInputTokens := ((usage.get "cache_read_input_tokens").bind Value.asU64).getD 0
      reasoningTokens := 0 }

def parse (response : Value) : Except String ModelResponse :=
  match response.items "content" with
  | none => .error "Anthropic response has no content"
  | some parts =>
      .ok
        { provider := "anthropic"
          model
          api := "messages"
          responseId := response.text "id"
          parts := parts.filterMap (parsePart model tools)
          usage := usage response
          stopReason := response.text "stop_reason" }

end Responses

/-! ## Tool names -/

/-- Whatever a tool of the catalog is called by the name that was sent for it is parsed as a
call of just that tool. -/
def NamesReturn (oauth : Bool) (tools : List ToolDefinition) : Prop :=
  ∀ tool ∈ tools, ∀ (model : String) (response : Value) (before after : List Value)
    (call arguments : Value) (id : String),
    response.items "content" = some (before ++ call :: after) →
    call.text "type" = some "tool_use" → call.text "id" = some id →
    call.text "name" = some (sentToolName oauth tool.name) →
    call.get "input" = some arguments →
    ∃ result, parse model tools response = .ok result ∧
      result.parts = before.filterMap (parsePart model tools) ++
        .toolCall id tool.name arguments none :: after.filterMap (parsePart model tools)

section Names

variable {oauth : Bool} {tools : List ToolDefinition} {tool other : ToolDefinition}

theorem eqIgnoreAsciiCase_iff {left right : String} :
    eqIgnoreAsciiCase left right = true ↔ toAsciiLowercase left = toAsciiLowercase right :=
  decide_eq_true_iff

/-- Only the case of a name is changed. -/
theorem toAsciiLowercase_claudeCodeToolName (name : String) :
    toAsciiLowercase (claudeCodeToolName name) = toAsciiLowercase name := by
  unfold claudeCodeToolName
  split
  · next hname =>
      rw [hname]
      decide
  · next hname =>
      rw [hname]
      decide
  · next hname =>
      rw [hname]
      decide
  · next hname =>
      rw [hname]
      decide
  · rfl

theorem toAsciiLowercase_sentToolName (name : String) :
    toAsciiLowercase (sentToolName oauth name) = toAsciiLowercase name := by
  rw [sentToolName]
  split_ifs
  · exact toAsciiLowercase_claudeCodeToolName name
  · rfl

/-- A name is looked up by its lower case. -/
theorem catalogName_congr {name name' : String}
    (hname : toAsciiLowercase name = toAsciiLowercase name') :
    catalogName tools name = catalogName tools name' := by
  rw [catalogName, catalogName]
  congr 2
  funext tool
  rw [eqIgnoreAsciiCase, eqIgnoreAsciiCase, hname]

theorem exists_catalogName (htool : tool ∈ tools) : ∃ first ∈ tools,
    eqIgnoreAsciiCase first.name tool.name = true ∧
      catalogName tools tool.name = some first.name := by
  have hself : eqIgnoreAsciiCase tool.name tool.name = true := eqIgnoreAsciiCase_iff.mpr rfl
  have hfound : (tools.find? fun other => eqIgnoreAsciiCase other.name tool.name).isSome :=
    List.find?_isSome.mpr ⟨tool, htool, hself⟩
  obtain ⟨first, hfirst⟩ := Option.isSome_iff_exists.mp hfound
  have hmatch := List.find?_some hfirst
  exact ⟨first, List.mem_of_find?_eq_some hfirst, hmatch, by
    rw [catalogName, hfirst, Option.map_some]⟩

theorem parsePart_toolUse {model id : String} {call arguments : Value}
    (htype : call.text "type" = some "tool_use") (hid : call.text "id" = some id)
    (hname : call.text "name" = some (sentToolName oauth tool.name))
    (hinput : call.get "input" = some arguments) (htool : tool ∈ tools) :
    parsePart model tools call =
      (catalogName tools tool.name).map fun name => .toolCall id name arguments none := by
  obtain ⟨first, -, -, hfound⟩ := exists_catalogName htool
  rw [parsePart, htype]
  simp only [hid, hname, hinput, Option.bind_eq_bind, Option.bind_some]
  rw [catalogName_congr (toAsciiLowercase_sentToolName tool.name), hfound]
  rfl

/-- A call as the provider returns it. -/
def toolUse (id name : String) (input : Value) : Value :=
  .object [("id", .string id), ("input", input), ("name", .string name),
    ("type", .string "tool_use")]

theorem NamesReturn.catalogName (hreturn : NamesReturn oauth tools) (htool : tool ∈ tools) :
    catalogName tools tool.name = some tool.name := by
  let call := toolUse "" (sentToolName oauth tool.name) .null
  obtain ⟨result, hparse, hparts⟩ := hreturn tool htool "" (.object [("content", .array [call])])
    [] [] call .null "" rfl rfl rfl rfl rfl
  have hcall : parsePart "" tools call = _ :=
    @parsePart_toolUse oauth tools tool "" "" call .null rfl rfl rfl rfl htool
  obtain ⟨first, -, -, hfound⟩ := exists_catalogName htool
  rw [hfound, Option.map_some] at hcall
  have hparsed : result.parts = [call].filterMap (parsePart "" tools) := by
    cases hparse
    rfl
  rw [List.filterMap_cons_some hcall, hparts] at hparsed
  simp only [List.filterMap_nil, List.nil_append, List.cons.injEq, ModelPart.toolCall.injEq,
    and_true, true_and] at hparsed
  rw [hfound, hparsed]

/-- The names come back exactly if no two tools have names that differ in their case only. -/
theorem namesReturn_iff (oauth : Bool) (tools : List ToolDefinition) :
    NamesReturn oauth tools ↔ ∀ tool ∈ tools, ∀ other ∈ tools,
      eqIgnoreAsciiCase tool.name other.name = true → tool.name = other.name := by
  constructor
  · intro hreturn tool htool other hother hsame
    have hname := @catalogName_congr tools _ _ (eqIgnoreAsciiCase_iff.mp hsame)
    rw [hreturn.catalogName htool, hreturn.catalogName hother] at hname
    exact Option.some.inj hname
  · intro hdistinct tool htool model response before after call arguments id hcontent htype hid
      hname hinput
    obtain ⟨first, hfirst, hsame, hfound⟩ := exists_catalogName htool
    have hparts : (before ++ call :: after).filterMap (parsePart model tools) =
        before.filterMap (parsePart model tools) ++
          .toolCall id tool.name arguments none :: after.filterMap (parsePart model tools) := by
      have hcall := @parsePart_toolUse _ _ _ model _ _ _ htype hid hname hinput htool
      rw [hfound, hdistinct first hfirst tool htool hsame, Option.map_some] at hcall
      rw [List.filterMap_append, List.filterMap_cons_some hcall]
    rw [parse, hcontent]
    exact ⟨_, rfl, hparts⟩

/-- Tools named `read` and `Read`: a call of the second is parsed as a call of the first. -/
def namesakes : List ToolDefinition :=
  [{ name := "read", description := "", schema := .null, agentId := none },
    { name := "Read", description := "", schema := .null, agentId := none }]

theorem namesakes_confused : (namesakes.map (·.name)).Nodup ∧ ¬NamesReturn false namesakes := by
  refine ⟨by decide, fun hreturn => ?_⟩
  have hread : catalogName namesakes "Read" = some "Read" :=
    hreturn.catalogName (List.mem_cons_of_mem _ List.mem_cons_self)
  exact absurd hread (by decide)

end Names

/-! ## The order of the messages -/

section Order

variable (toStr : Value → String) (model : String) (oauth : Bool)

/-- The blocks of these messages in order, with their roles. -/
def blocks (messages : List ModelMessage) : List (Role × Value) :=
  messages.filterMap (block toStr model oauth)

/-- All of the messages that is encoded has this role. -/
def EncodedAs (role : Role) (messages : List ModelMessage) : Prop :=
  ∀ message ∈ messages, ∀ encoded ∈ block toStr model oauth message, encoded.1 = role

/-- Messages are encoded in order, nothing but what is `dropped` left out, and a tool result
follows its call as it does in the input. -/
structure EncodedInOrder (dropped : ModelMessage → Prop) (messages : List ModelMessage)
    (encoded : List (Role × List Value)) : Prop where
  alternate : encoded.IsChain fun message next => message.1 ≠ next.1
  blocks : Runs.expand encoded = blocks toStr model oauth messages
  kept : ∀ message ∈ messages, block toStr model oauth message = none → dropped message
  /-- The call is among the last blocks of an assistant message, the result among the first
  ones of the user message after it. -/
  results : ∀ before call calls results result after callBlock resultBlock,
    messages = before ++ call :: calls ++ results ++ result :: after →
    EncodedAs toStr model oauth .assistant calls → EncodedAs toStr model oauth .user results →
    block toStr model oauth call = some (.assistant, callBlock) →
    block toStr model oauth result = some (.user, resultBlock) →
    ∃ earlier callsBefore callsAfter resultsBefore resultsAfter later,
      encoded = earlier ++ (.assistant, callsBefore ++ callBlock :: callsAfter) ::
        (.user, resultsBefore ++ resultBlock :: resultsAfter) :: later ∧
      Runs.expand earlier ++ callsBefore.map (Role.assistant, ·) =
        Anthropic.blocks toStr model oauth before ∧
      resultsAfter.map (Role.user, ·) ++ Runs.expand later = Anthropic.blocks toStr model oauth after

/-- State of another provider. -/
def foreignProvider (message : ModelMessage) : Prop :=
  ∃ provider stateModel data,
    message.content = .providerState provider stateModel data ∧ provider ≠ "anthropic"

/-- State that is not of this model of Anthropic. -/
def foreignState (message : ModelMessage) : Prop :=
  ∃ provider stateModel data, message.content = .providerState provider stateModel data ∧
    ¬(provider = "anthropic" ∧ stateModel = model)

variable {toStr model oauth}

theorem foreignState_of_block_eq_none {message : ModelMessage}
    (hblock : block toStr model oauth message = none) : foreignState model message := by
  rw [block] at hblock
  cases hcontent : message.content with
  | providerState provider stateModel data =>
      refine ⟨provider, stateModel, data, hcontent, fun hown => ?_⟩
      simp [hcontent, hown] at hblock
  | _ => simp [hcontent] at hblock

theorem EncodedAs.exists_map {role : Role} {messages : List ModelMessage}
    (hrole : EncodedAs toStr model oauth role messages) :
    ∃ values : List Value, blocks toStr model oauth messages = values.map (role, ·) := by
  refine ⟨(blocks toStr model oauth messages).map Prod.snd, ?_⟩
  rw [List.map_map]
  conv_lhs => rw [← List.map_id (blocks toStr model oauth messages)]
  apply List.map_congr_left
  intro encoded hencoded
  obtain ⟨message, hmessage, hblock⟩ := List.mem_filterMap.mp hencoded
  exact Prod.ext (hrole message hmessage encoded hblock) rfl

/-- The messages of a request are encoded in order, but for state of others. -/
theorem messages_encodedInOrder (toStr : Value → String) (model : String) (oauth : Bool)
    (input : List ModelMessage) :
    EncodedInOrder toStr model oauth (foreignState model) input
      (messages toStr model oauth input) := by
  constructor
  · exact Runs.isChain_merge _
  · exact Runs.expand_merge _
  · exact fun message _ => foreignState_of_block_eq_none
  · intro before call calls results result after callBlock resultBlock hinput hcalls hresults
      hcall hresult
    obtain ⟨callsAfter, hcallsAfter⟩ := hcalls.exists_map
    obtain ⟨resultsBefore, hresultsBefore⟩ := hresults.exists_map
    have hblocks : blocks toStr model oauth input = blocks toStr model oauth before ++
        (callBlock :: callsAfter).map (Role.assistant, ·) ++
          ((resultsBefore ++ [resultBlock]).map (Role.user, ·) ++
            blocks toStr model oauth after) := by
      rw [List.map_cons, List.map_append, ← hcallsAfter, ← hresultsBefore, hinput]
      simp only [blocks, List.filterMap_append, List.filterMap_cons_some hcall,
        List.filterMap_cons_some hresult, List.append_assoc, List.cons_append,
        List.map_cons, List.map_nil, List.nil_append]
    have hroles : Role.assistant ≠ Role.user := by decide
    have hcallsLast : callBlock :: callsAfter ≠ [] := List.cons_ne_nil _ _
    have hresultsFirst : resultsBefore ++ [resultBlock] ≠ [] := by simp
    obtain ⟨earlier, callsBefore, resultsAfter, later, hmerge, hbefore, hafter⟩ :=
      Runs.exists_merge_change (blocks toStr model oauth before) (blocks toStr model oauth after)
        hroles hcallsLast hresultsFirst
    refine ⟨earlier, callsBefore, callsAfter, resultsBefore, resultsAfter, later, ?_, hbefore,
      hafter⟩
    rw [messages, ← blocks, hblocks, hmerge, List.append_assoc, List.singleton_append]

/-- State of the provider, but of another of its models, is left out as well. -/
theorem otherModel_dropped : ¬EncodedInOrder (fun _ => "") "claude-b" false foreignProvider
    [{ role := .assistant, content := .providerState "anthropic" "claude-a" .null }]
    (messages (fun _ => "") "claude-b" false
      [{ role := .assistant, content := .providerState "anthropic" "claude-a" .null }]) := by
  intro hencoded
  obtain ⟨provider, stateModel, data, hcontent, hprovider⟩ :=
    hencoded.kept _ List.mem_cons_self (by decide)
  cases hcontent
  exact hprovider rfl

end Order

end Mews.Anthropic
