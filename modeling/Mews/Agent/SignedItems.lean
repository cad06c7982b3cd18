import Mews.Agent.NativeReplay
import Mews.Router.Agreement

/-!
# Signed items

Some items of a response are encrypted or signed, and the provider wants them back as they
were.  They go through the parser, the stored response, the replay and the encoder.  The
items of OpenAI come back always, those of Anthropic if the thought that is signed is there,
and those of Gemini if they are thoughts or calls: a text has no place for a signature.
-/

namespace Mews

open Protocol HostProtocol

/-! ## Items of the providers -/

namespace Openai

/-- Reasoning that only the provider can read. -/
def isSigned (item : Value) : Bool := item.text "type" = some "reasoning" ∧ isEncrypted item

/-- The event announces such an item. -/
def isSignedEvent (event : Value) : Prop :=
  event.text "type" = some "response.output_item.done" ∧ isSigned (eventItem event) = true

instance : DecidablePred isSignedEvent := fun _ => instDecidableAnd

end Openai

namespace Anthropic

def isSigned (item : Value) : Bool :=
  match item.text "type" with
  | some "thinking" => (item.text "signature").isSome
  | some "redacted_thinking" => true
  | _ => false

/-- The same signature of the same thought, or the same redacted thought. -/
structure SameItem (item sent : Value) : Prop where
  kind : sent.text "type" = item.text "type"
  thinking : sent.text "thinking" = item.text "thinking"
  signature : sent.text "signature" = item.text "signature"
  redacted : item.text "type" = some "redacted_thinking" → sent = item

/-- What is signed is there. -/
def Readable (item : Value) : Prop :=
  item.text "type" = some "thinking" → (item.text "thinking").isSome = true

end Anthropic

namespace Gemini

def isSigned (part : Value) : Bool := (part.text "thoughtSignature").isSome

def isThought (part : Value) : Bool := (part.flag "thought").getD false

/-- The name and the arguments of a call, and its identifier if it has one. -/
structure SameCall (call sent : Value) : Prop where
  name : sent.text "name" = call.text "name"
  args : sent.get "args" = some ((call.get "args").getD (.object []))
  id : ∀ id, call.text "id" = some id → sent.text "id" = some id

/-- The text of a part, or its call. -/
inductive SameContent (part sent : Value) : Prop
  | text {text : String} (hpart : part.text "text" = some text)
      (hsent : sent.text "text" = some text) (hthought : isThought sent = isThought part)
  | call {call sentCall : Value} (hpart : part.text "text" = none)
      (hsent : sent.text "text" = none) (hcall : part.get "functionCall" = some call)
      (hsentCall : sent.get "functionCall" = some sentCall) (hsame : SameCall call sentCall)

/-- The same signature of the same text or call. -/
structure SameItem (part sent : Value) : Prop where
  signature : sent.text "thoughtSignature" = part.text "thoughtSignature"
  content : SameContent part sent

/-- The part is a thought or a call. -/
def Readable (part : Value) : Prop :=
  match part.text "text" with
  | some _ => isThought part = true
  | none => ∃ call name, part.get "functionCall" = some call ∧ call.text "name" = some name

end Gemini

namespace ProviderResponse

/-- The provider whose response it is. -/
def ComesFrom : ProviderResponse → String → Prop
  | .openai _, provider | .codex _, provider | .openaiStream _, provider =>
      provider = "openai" ∨ provider = "openai-codex"
  | .anthropic .., provider => provider = "anthropic"
  | .gemini .., provider => provider = "google"

def isSigned : ProviderResponse → Value → Bool
  | .openai _ | .codex _ | .openaiStream _ => Openai.isSigned
  | .anthropic .. => Anthropic.isSigned
  | .gemini .. => Gemini.isSigned

def SameItem : ProviderResponse → Value → Value → Prop
  | .openai _ | .codex _ | .openaiStream _ => Eq
  | .anthropic .. => Anthropic.SameItem
  | .gemini .. => Gemini.SameItem

def ReadableItem : ProviderResponse → Value → Prop
  | .openai _ | .codex _ | .openaiStream _ => fun _ => True
  | .anthropic .. => Anthropic.Readable
  | .gemini .. => Gemini.Readable

section Replay

variable (library : StreamLibrary) (toStr : Value → String) (oauth : Bool) (request : ModelRequest)

/-- The signed items of a response to the request. -/
def signedItems : ProviderResponse → List Value
  | .openai response => ((response.items "output").getD []).filter Openai.isSigned
  | .codex body =>
      let response := Openai.completedResponse library (Openai.codexBlocks body)
      ((response.bind fun response => response.items "output").getD []).filter Openai.isSigned
  | .openaiStream chunks =>
      let (provider, model) := replayTarget request.model
      ((Openai.streamEvents library (openaiResponseStream library provider model chunks)).filter
        Openai.isSignedEvent).map Openai.eventItem
  | .anthropic _ response => ((response.items "content").getD []).filter Anthropic.isSigned
  | .gemini _ response => ((Gemini.candidateParts response).getD []).filter Gemini.isSigned

/-- What the encoder of the provider makes of messages. -/
def encoded (response : ProviderResponse) (messages : List ModelMessage) : List Value :=
  let (provider, model) := replayTarget request.model
  match response with
  | .openai _ | .codex _ | .openaiStream _ => Openai.messages toStr provider model messages
  | .anthropic .. => (Anthropic.messages toStr model oauth messages).flatMap Prod.snd
  | .gemini .. => (Gemini.messages model messages).map Prod.snd

/-- The signed items that are sent for entries. -/
def resent (response : ProviderResponse) (entries : List SessionEntry) : List Value :=
  (response.encoded toStr oauth request (nativeReplay entries request.model)).filter
    response.isSigned

/-- What is read of a response to the request. -/
def readResponse (events : List ModelStreamEvent) : AssistantResponse :=
  (events.foldl Reading.take (Reading.initial request)).response

/-- Wherever a response that is accepted is stored, its signed items are sent for it again
when its model is called, and no others. -/
def SignedItemsReturn (response : ProviderResponse) : Prop :=
  let (provider, model) := replayTarget request.model
  response.ComesFrom provider →
    ∀ events, response.accepted library provider model = some events →
      ∀ (before after : List SessionEntry) (entry : SessionEntry) (turnId : TurnId),
        entry.payload = .assistantResponse turnId (readResponse request events) →
          ∃ items,
            response.resent toStr oauth request (before ++ entry :: after) =
              response.resent toStr oauth request before ++ items ++
                response.resent toStr oauth request after ∧
            List.Forall₂ response.SameItem (response.signedItems library request) items

end Replay

end ProviderResponse

/-! ## What is sent of a block -/

/-- The value that the encoder makes of a message. -/
def ProviderResponse.encodeItem (toStr : Value → String) (oauth : Bool) (provider model : String)
    (response : ProviderResponse) (message : ModelMessage) : Option Value :=
  match response with
  | .openai _ | .codex _ | .openaiStream _ => Openai.encode toStr provider model message
  | .anthropic .. => (Anthropic.block toStr model oauth message).map Prod.snd
  | .gemini .. => (Gemini.encode model message).map Prod.snd

section Blocks

variable (encodeItem : ModelMessage → Option Value) (isSigned : Value → Bool)
  (provider model : String)

/-- The signed items that are sent for a block. -/
def sentBlock (response : AssistantResponse) (block : AssistantResponseBlock) : List Value :=
  (((replayedBlock provider model response block).bind fun content =>
    encodeItem { role := .assistant, content }).filter isSigned).toList

/-- The signed items that are sent for an entry. -/
def sentEntry (entry : SessionEntry) : List Value :=
  ((replayedMessages provider model entry).filterMap encodeItem).filter isSigned

variable {encodeItem isSigned provider model}

theorem sentEntry_response {entry : SessionEntry} {turnId : TurnId} {response : AssistantResponse}
    (hpayload : entry.payload = .assistantResponse turnId response) :
    sentEntry encodeItem isSigned provider model entry =
      response.blocks.flatMap (sentBlock encodeItem isSigned provider model response) := by
  rw [sentEntry, replayedMessages, hpayload]
  simp only
  rw [List.filterMap_filterMap, List.filter_filterMap, List.filterMap_eq_flatMap_toList]
  apply List.flatMap_congr
  intro block _
  rw [sentBlock]
  cases replayedBlock provider model response block <;> rfl

end Blocks

/-- What is sent of an event whose block comes by itself. -/
def ModelStreamEvent.sent (values : AssistantResponseBlock → List Value)
    (event : ModelStreamEvent) : List Value :=
  (event.piece.map fun piece => values piece.2).getD []

section Reading

variable {values : AssistantResponseBlock → List Value}

theorem flatMap_appendText (hquiet : ∀ text, values (.text text) = [])
    (blocks : List AssistantResponseBlock) (delta : String) :
    (Reading.appendText blocks delta).flatMap values = blocks.flatMap values := by
  cases blocks using List.reverseRecOn with
  | nil => simp [Reading.appendText, hquiet]
  | append_singleton blocks last =>
      cases last with
      | text text => simp [appendText_snoc_text, hquiet]
      | _ =>
          rw [appendText_of_other (by simp [AssistantResponseBlock.isText])]
          simp [hquiet]

/-- Of blocks of which nothing is sent for a text, what is sent comes event by event. -/
theorem flatMap_readBlocks (hquiet : ∀ text, values (.text text) = [])
    (events : List ModelStreamEvent) :
    (readBlocks events).flatMap values = events.flatMap (·.sent values) := by
  induction events using List.reverseRecOn with
  | nil => rfl
  | append_singleton events event ih =>
      rw [readBlocks, List.foldl_append, ← readBlocks, List.flatMap_append, ← ih,
        List.foldl_cons, List.foldl_nil, List.flatMap_singleton]
      cases event with
      | textDelta delta =>
          rw [blocksAfter, flatMap_appendText hquiet]
          simp [ModelStreamEvent.sent, ModelStreamEvent.piece, hquiet]
      | reasoning text signature => simp [blocksAfter, ModelStreamEvent.sent, ModelStreamEvent.piece]
      | toolCall id name arguments thoughtSignature =>
          simp [blocksAfter, ModelStreamEvent.sent, ModelStreamEvent.piece]
      | providerState provider model data =>
          simp [blocksAfter, ModelStreamEvent.sent, ModelStreamEvent.piece]
      | _ => simp [blocksAfter, ModelStreamEvent.sent, ModelStreamEvent.piece]

theorem flatMap_sent_events (values : AssistantResponseBlock → List Value)
    (response : ModelResponse) :
    response.events.flatMap (·.sent values) =
      response.parts.flatMap fun part => part.event.sent values := by
  rw [ModelResponse.events, List.flatMap_append, List.flatMap_append, List.flatMap_map]
  exact List.append_nil _

end Reading

/-! ## Items that come back -/

namespace Openai

section Items

variable (library : StreamLibrary) (toStr : Value → String) (provider model : String)

/-- What is sent of a block. -/
def sentState : AssistantResponseBlock → List Value
  | .opaqueState stateProvider stateModel data =>
      if (stateProvider = provider ∧ stateModel = model) ∧ isSigned data then [data] else []
  | _ => []

variable {toStr provider model}

theorem sentBlock_eq (hprovider : provider = "openai" ∨ provider = "openai-codex")
    (response : AssistantResponse) :
    sentBlock (encode toStr provider model) isSigned provider model response =
      sentState provider model := by
  funext block
  cases block with
  | text text => rfl
  | toolCall callId tool arguments thoughtSignature => rfl
  | reasoning text signature =>
      have hnone : thinkingState provider text signature = none := by
        rcases hprovider with rfl | rfl
        · rfl
        · rfl
      rw [sentBlock, replayedBlock, hnone, Option.map_none, ite_self]
      rfl
  | opaqueState stateProvider stateModel data =>
      rw [sentBlock, replayedBlock, sentState]
      by_cases hsame : stateProvider = provider ∧ stateModel = model
      · rw [if_pos hsame, Option.bind_some, encode]
        simp only [if_pos hsame, Option.filter_some, and_iff_right hsame]
        split_ifs <;> rfl
      · rw [if_neg hsame, if_neg (fun h => hsame h.1)]
        rfl

variable (provider model)

/-- An encrypted item is sent again, and nothing of another. -/
theorem flatMap_closing (item : Value) :
    (closing library provider model item).flatMap (·.sent (sentState provider model)) =
      if isSigned item then [item] else [] := by
  rw [closing, isSigned]
  split
  · next hkind =>
      rw [hkind, if_neg (by simp)]
      cases hpart : callPart library item with
      | none => rfl
      | some part =>
          obtain ⟨id, name, arguments, -, rfl⟩ := callPart_eq_some_iff.mp hpart
          rfl
  · next hkind =>
      rw [hkind]
      simp only [true_and, decide_eq_true_eq]
      split_ifs with hencrypted
      · have hsigned : isSigned item = true := decide_eq_true ⟨hkind, hencrypted⟩
        rw [List.flatMap_singleton]
        exact if_pos ⟨⟨rfl, rfl⟩, hsigned⟩
      · rfl
  · next hreasoning =>
      rw [if_neg fun hsigned => hreasoning (of_decide_eq_true hsigned).1]
      rfl

theorem flatMap_deltaItem (kind : String) (deltas : List String) :
    (deltas.map (deltaItem kind)).flatMap (·.sent (sentState provider model)) = [] := by
  rw [List.flatMap_map, List.flatMap_eq_nil_iff]
  intro delta _
  rw [deltaItem]
  split_ifs <;> rfl

theorem flatMap_itemParts (item : Value) :
    ((itemParts library provider model item).map ModelPart.event).flatMap
      (·.sent (sentState provider model)) = if isSigned item then [item] else [] := by
  rw [map_event_itemParts, List.flatMap_append, flatMap_deltaItem, List.nil_append,
    flatMap_closing]

variable {provider model}

/-- Nothing is sent of an event that brings no state of the provider. -/
theorem flatMap_eventItems_other {event : Value}
    (hother : event.text "type" ≠ some "response.output_item.done") :
    (eventItems library provider model event).flatMap (·.sent (sentState provider model)) = [] := by
  rw [eventItems, readEvent]
  split
  · next item hread =>
      split at hread
      · cases hread
      · cases hread
      · cases hread
      · cases hread
        cases event.get "response" <;> rfl
      · cases hread
        cases event.text "delta" <;> rfl
      · cases hread
        cases event.text "delta" <;> rfl
      · contradiction
      · cases hread
      · cases hread
        rfl
  · next items hread =>
      split at hread
      all_goals cases hread
      all_goals rfl

/-- An encrypted item of a stream comes back, and nothing of another event. -/
theorem flatMap_eventItems (event : Value) :
    (eventItems library provider model event).flatMap (·.sent (sentState provider model)) =
      if isSignedEvent event then [eventItem event] else [] := by
  by_cases hkind : event.text "type" = some "response.output_item.done"
  · cases hitem : event.get "item" with
    | none =>
        have hnull : eventItem event = .null := by
          rw [eventItem, hitem]
          rfl
        rw [eventItems_done hkind, outputItem, itemType_eq, hnull, if_neg]
        · rfl
        · rintro ⟨-, hsigned⟩
          rw [hnull] at hsigned
          exact absurd hsigned (by decide)
    | some item =>
        have hsame : eventItem event = item := by
          rw [eventItem, hitem]
          rfl
        rw [IsDone.eventItems_eq ⟨hkind, hitem⟩, flatMap_closing, hsame]
        simp only [isSignedEvent, hkind, hsame, true_and]
  · rw [flatMap_eventItems_other library hkind, if_neg fun hsigned => hkind hsigned.1]

end Items

end Openai

namespace Anthropic

section Items

variable {toStr : Value → String} {model : String} {oauth : Bool} {tools : List ToolDefinition}

/-- What is sent of a block. -/
def sentThought (model : String) : AssistantResponseBlock → List Value
  | .reasoning text (some signature) =>
      [.object [("signature", .string signature), ("thinking", .string text),
        ("type", .string "thinking")]]
  | .opaqueState provider stateModel data =>
      if (provider = "anthropic" ∧ stateModel = model) ∧ isSigned data then [data] else []
  | _ => []

/-- State of the model is encoded as it is. -/
theorem block_state (data : Value) : Anthropic.block toStr model oauth
    { role := .assistant, content := .providerState "anthropic" model data } =
      some (.assistant, data) :=
  if_pos ⟨rfl, rfl⟩

theorem sentBlock_eq {response : AssistantResponse} (hprovider : response.provider = "anthropic")
    (hmodel : response.model = model) :
    sentBlock (fun message => (block toStr model oauth message).map Prod.snd) isSigned "anthropic"
      model response = sentThought model := by
  funext block
  cases block with
  | text text => rfl
  | toolCall callId tool arguments thoughtSignature => rfl
  | reasoning text signature =>
      rw [sentBlock, replayedBlock, if_pos ⟨hprovider, hmodel⟩, thinkingState, Option.map_some,
        Option.bind_some, block_state]
      cases signature with
      | none => rfl
      | some signature => rfl
  | opaqueState stateProvider stateModel data =>
      rw [sentBlock, replayedBlock, sentThought]
      by_cases hsame : stateProvider = "anthropic" ∧ stateModel = model
      · obtain ⟨rfl, rfl⟩ := hsame
        rw [if_pos ⟨rfl, rfl⟩, Option.bind_some, block_state, Option.map_some, Option.filter_some]
        simp only [and_self, true_and]
        split_ifs <;> rfl
      · rw [if_neg hsame, if_neg (fun h => hsame h.1)]
        rfl

/-- What is sent of a part. -/
def sentOf (model : String) (tools : List ToolDefinition) (part : Value) : List Value :=
  ((parsePart model tools part).map fun parsed => parsed.event.sent (sentThought model)).getD []

theorem sentOf_call {part : Value} (hcall : isCall part) : sentOf model tools part = [] := by
  rw [sentOf]
  cases hparsed : parsePart model tools part with
  | none => rfl
  | some parsed =>
      obtain ⟨id, name, arguments, -, rfl⟩ := (parsePart_call hcall).mp hparsed
      rfl

theorem sentOf_thinking {part : Value} (hkind : part.text "type" = some "thinking") :
    sentOf model tools part = ((part.text "thinking").bind fun text =>
      (part.text "signature").map fun signature => Value.object
        [("signature", .string signature), ("thinking", .string text),
          ("type", .string "thinking")]).toList := by
  rw [sentOf, parsePart, hkind]
  cases part.text "thinking" with
  | none => rfl
  | some text =>
      cases part.text "signature" with
      | none => rfl
      | some signature => rfl

theorem sentOf_redacted {part : Value} (hkind : part.text "type" = some "redacted_thinking") :
    sentOf model tools part = [part] := by
  have hsigned : isSigned part = true := by
    rw [isSigned, hkind]
    rfl
  rw [sentOf, parsePart, hkind]
  exact if_pos ⟨⟨rfl, rfl⟩, hsigned⟩

variable (model tools) in
/-- What is sent of a part comes back as it was. -/
theorem converts_sentOf : Converts (fun part => isSigned part = true) Readable (fun _ => true)
    SameItem (sentOf model tools) := by
  constructor
  · intro part hunsigned
    rw [List.filter_true]
    rw [isSigned] at hunsigned
    split at hunsigned
    · next hkind =>
        rw [sentOf_thinking hkind, Option.not_isSome_iff_eq_none.mp hunsigned]
        cases part.text "thinking" <;> rfl
    · exact absurd rfl hunsigned
    · next hthinking hredacted =>
        by_cases hcall : isCall part
        · exact sentOf_call hcall
        · rw [sentOf, parsePart]
          split
          · cases part.text "text" <;> rfl
          · contradiction
          · contradiction
          · contradiction
          · rfl
  · intro part hsigned hreadable
    rw [List.filter_true]
    rw [isSigned] at hsigned
    split at hsigned
    · next hkind =>
        obtain ⟨text, htext⟩ := Option.isSome_iff_exists.mp (hreadable hkind)
        obtain ⟨signature, hsignature⟩ := Option.isSome_iff_exists.mp hsigned
        refine ⟨_, by rw [sentOf_thinking hkind, htext, hsignature]; rfl, ?_⟩
        constructor
        · exact hkind.symm
        · exact htext.symm
        · exact hsignature.symm
        · intro hredacted
          rw [hkind] at hredacted
          exact absurd hredacted (by decide)
    · next hkind =>
        exact ⟨part, sentOf_redacted hkind, rfl, rfl, rfl, fun _ => rfl⟩
    · cases hsigned
  · intro part _ hunreadable
    rw [Readable, Classical.not_imp] at hunreadable
    obtain ⟨hkind, hnone⟩ := hunreadable
    rw [List.filter_true, sentOf_thinking hkind, Option.not_isSome_iff_eq_none.mp hnone]
    rfl

end Items

end Anthropic

namespace Gemini

section Items

variable {model : String} {newId : String}

/-- What is sent of a block. -/
def sentPart (model : String) : AssistantResponseBlock → List Value
  | .reasoning text (some signature) =>
      [.object [("text", .string text), ("thought", .bool true),
        ("thoughtSignature", .string signature)]]
  | .toolCall callId tool arguments (some signature) =>
      [callValue callId tool arguments (some signature)]
  | .opaqueState provider stateModel data =>
      if (provider = "google" ∧ stateModel = model) ∧ isSigned data then [data] else []
  | _ => []

/-- State of the model is encoded as it is. -/
theorem encode_state (data : Value) : encode model
    { role := .assistant, content := .providerState "google" model data } = some ("model", data) :=
  if_pos ⟨rfl, rfl⟩

theorem sentBlock_eq {response : AssistantResponse} (hprovider : response.provider = "google")
    (hmodel : response.model = model) :
    sentBlock (fun message => (encode model message).map Prod.snd) isSigned "google" model
      response = sentPart model := by
  funext block
  cases block with
  | text text => rfl
  | toolCall callId tool arguments thoughtSignature =>
      rw [sentBlock, replayedBlock, if_pos ⟨hprovider, hmodel⟩, Option.bind_some, encode]
      cases thoughtSignature with
      | none => rfl
      | some signature => rfl
  | reasoning text signature =>
      rw [sentBlock, replayedBlock, if_pos ⟨hprovider, hmodel⟩, thinkingState, Option.map_some,
        Option.bind_some, encode_state]
      cases signature with
      | none => rfl
      | some signature => rfl
  | opaqueState stateProvider stateModel data =>
      rw [sentBlock, replayedBlock, sentPart]
      by_cases hsame : stateProvider = "google" ∧ stateModel = model
      · obtain ⟨rfl, rfl⟩ := hsame
        rw [if_pos ⟨rfl, rfl⟩, Option.bind_some, encode_state, Option.map_some, Option.filter_some]
        simp only [and_self, true_and]
        split_ifs <;> rfl
      · rw [if_neg hsame, if_neg (fun h => hsame h.1)]
        rfl

/-- What is sent of a part. -/
def sentOf (model newId : String) (part : Value) : List Value :=
  ((parsePart newId part).map fun parsed => parsed.event.sent (sentPart model)).getD []

theorem sentOf_text {part : Value} {text : String} (htext : part.text "text" = some text) :
    sentOf model newId part =
      if isThought part then
        ((part.text "thoughtSignature").map fun signature => Value.object
          [("text", .string text), ("thought", .bool true),
            ("thoughtSignature", .string signature)]).toList
      else [] := by
  rw [sentOf, parsePart, htext, ← isThought]
  by_cases hthought : isThought part = true
  · rw [if_pos hthought]
    simp only [if_pos hthought]
    cases part.text "thoughtSignature" with
    | none => rfl
    | some signature => rfl
  · rw [if_neg hthought]
    simp only [if_neg hthought]
    rfl

theorem sentOf_call {part call : Value} {name : String} (htext : part.text "text" = none)
    (hcall : part.get "functionCall" = some call) (hname : call.text "name" = some name) :
    sentOf model newId part =
      ((part.text "thoughtSignature").map fun signature =>
        callValue ((call.text "id").getD newId) name ((call.get "args").getD (.object []))
          (some signature)).toList := by
  rw [sentOf, parsePart, htext, hcall]
  simp only [Option.bind_eq_bind, Option.bind_some, hname]
  cases part.text "thoughtSignature" with
  | none => rfl
  | some signature => rfl

theorem sentOf_other {part : Value} (htext : part.text "text" = none)
    (hcall : ¬∃ call name, part.get "functionCall" = some call ∧ call.text "name" = some name) :
    sentOf model newId part = [] := by
  rw [sentOf, parsePart, htext]
  cases hfunction : part.get "functionCall" with
  | none => rfl
  | some call =>
      cases hname : call.text "name" with
      | none => simp [hname]
      | some name => exact absurd ⟨call, name, hfunction, hname⟩ hcall

/-- Of a part without a signature nothing is sent that has one. -/
theorem sentOf_unsigned {part : Value} (hunsigned : part.text "thoughtSignature" = none) :
    sentOf model newId part = [] := by
  cases htext : part.text "text" with
  | some text => rw [sentOf_text htext, hunsigned, Option.map_none, Option.toList_none, ite_self]
  | none =>
      by_cases hcall : ∃ call name,
          part.get "functionCall" = some call ∧ call.text "name" = some name
      · obtain ⟨call, name, hfunction, hname⟩ := hcall
        rw [sentOf_call htext hfunction hname, hunsigned]
        rfl
      · exact sentOf_other htext hcall

variable (model newId) in
/-- What is sent of a part comes back as it was. -/
theorem converts_sentOf : Converts (fun part => isSigned part = true) Readable (fun _ => true)
    SameItem (sentOf model newId) := by
  constructor
  · intro part hunsigned
    rw [List.filter_true]
    exact sentOf_unsigned (Option.not_isSome_iff_eq_none.mp hunsigned)
  · intro part hsigned hreadable
    rw [List.filter_true]
    obtain ⟨signature, hsignature⟩ := Option.isSome_iff_exists.mp hsigned
    rw [Readable] at hreadable
    split at hreadable
    · next text htext =>
        refine ⟨_, by rw [sentOf_text htext, if_pos hreadable, hsignature]; rfl, ?_⟩
        exact ⟨hsignature.symm, .text htext rfl hreadable.symm⟩
    · next htext =>
        obtain ⟨call, name, hcall, hname⟩ := hreadable
        refine ⟨_, by rw [sentOf_call htext hcall hname, hsignature]; rfl, ?_⟩
        refine ⟨hsignature.symm, .call htext rfl hcall rfl ?_⟩
        constructor
        · exact hname.symm
        · rfl
        · intro id hid
          rw [hid]
          rfl
  · intro part _ hunreadable
    rw [List.filter_true]
    rw [Readable] at hunreadable
    split at hunreadable
    · next text htext => rw [sentOf_text htext, if_neg hunreadable]
    · next htext => exact sentOf_other htext hunreadable

/-- The identifier that is made for a call does not matter. -/
theorem converts_placed (newIds : Nat → String) (model : String) :
    Converts (fun part : Value × Nat => isSigned part.1 = true) (fun part => Readable part.1)
      (fun _ => true) (fun part => SameItem part.1)
      (fun part => sentOf model (newIds part.2) part.1) := by
  constructor
  · exact fun part => (converts_sentOf model (newIds part.2)).other part.1
  · exact fun part => (converts_sentOf model (newIds part.2)).delivered part.1
  · exact fun part => (converts_sentOf model (newIds part.2)).lost part.1

end Items

end Gemini

/-! ## The whole way -/

namespace ProviderResponse

section Replay

variable {library : StreamLibrary} {toStr : Value → String} {oauth : Bool} {request : ModelRequest}
  {response : ProviderResponse}

theorem encoded_eq (messages : List ModelMessage) :
    response.encoded toStr oauth request messages =
      messages.filterMap (response.encodeItem toStr oauth (replayTarget request.model).1
        (replayTarget request.model).2) := by
  have hcontents : ∀ blocks : List (Anthropic.Role × Value),
      (Runs.merge blocks).flatMap Prod.snd = blocks.map Prod.snd := by
    intro blocks
    conv_rhs => rw [← Runs.expand_merge blocks, Runs.expand, List.map_flatMap]
    apply List.flatMap_congr
    intro run _
    rw [List.map_map]
    exact (List.map_id _).symm
  cases response with
  | openai response => rfl
  | codex body => rfl
  | openaiStream chunks => rfl
  | anthropic tools response =>
      rw [encoded]
      simp only [Anthropic.messages, hcontents, List.map_filterMap]
      rfl
  | gemini newIds response =>
      rw [encoded]
      simp only [Gemini.messages, List.map_filterMap]
      rfl

/-- The signed items are sent entry by entry. -/
theorem resent_eq (entries : List SessionEntry) :
    response.resent toStr oauth request entries =
      entries.flatMap (sentEntry (response.encodeItem toStr oauth (replayTarget request.model).1
        (replayTarget request.model).2) response.isSigned (replayTarget request.model).1
          (replayTarget request.model).2) := by
  rw [resent, encoded_eq, nativeReplay, List.filterMap_flatMap, List.filter_flatMap]
  rfl

/-- An entry with a response. -/
def stored (response : AssistantResponse) : SessionEntry where
  id := ⟨""⟩
  sessionId := ⟨""⟩
  sequence := 0
  parentId := none
  payload := .assistantResponse ⟨""⟩ response
  createdAt := 0

/-- What a stored response is sent as. -/
def sentBlocks (toStr : Value → String) (oauth : Bool) (request : ModelRequest)
    (response : ProviderResponse) (events : List ModelStreamEvent) : List Value :=
  (readBlocks events).flatMap (sentBlock (response.encodeItem toStr oauth
    (replayTarget request.model).1 (replayTarget request.model).2) response.isSigned
      (replayTarget request.model).1 (replayTarget request.model).2 (readResponse request events))

theorem sentEntry_eq {events : List ModelStreamEvent} {entry : SessionEntry} {turnId : TurnId}
    (hpayload : entry.payload = .assistantResponse turnId (readResponse request events)) :
    sentEntry (response.encodeItem toStr oauth (replayTarget request.model).1
        (replayTarget request.model).2) response.isSigned (replayTarget request.model).1
          (replayTarget request.model).2 entry =
      response.sentBlocks toStr oauth request events := by
  have hblocks : (readResponse request events).blocks = readBlocks events :=
    blocks_foldl_take events (Reading.initial request) rfl
  rw [sentEntry_response hpayload, hblocks]
  rfl

theorem signedItemsReturn_iff_forall₂ : response.SignedItemsReturn library toStr oauth request ↔
    (response.ComesFrom (replayTarget request.model).1 →
      ∀ events, response.accepted library (replayTarget request.model).1
          (replayTarget request.model).2 = some events →
        List.Forall₂ response.SameItem (response.signedItems library request)
          (response.sentBlocks toStr oauth request events)) := by
  constructor
  · intro hreturn hfrom events hevents
    obtain ⟨items, hitems, hsame⟩ := hreturn hfrom events hevents [] []
      (stored (readResponse request events)) ⟨""⟩ rfl
    rw [resent_eq, resent_eq, List.nil_append, List.flatMap_singleton, List.flatMap_nil,
      List.nil_append, List.append_nil, sentEntry_eq rfl] at hitems
    rwa [hitems]
  · intro hsame hfrom events hevents before after entry turnId hpayload
    refine ⟨response.sentBlocks toStr oauth request events, ?_, hsame hfrom events hevents⟩
    rw [resent_eq, resent_eq, resent_eq, List.flatMap_append, List.flatMap_cons,
      sentEntry_eq hpayload, List.append_assoc]

/-- Items that are sent again one by one. -/
theorem forall₂_converts {A : Type} {isSigned : A → Bool} {readable : A → Prop}
    {SameItem : A → Value → Prop} {sentOf : A → List Value}
    (hconverts : Converts (fun item => isSigned item = true) readable (fun _ => true) SameItem
      sentOf) (items : List A) :
    List.Forall₂ SameItem (items.filter isSigned) (items.flatMap sentOf) ↔
      ∀ item ∈ items.filter isSigned, readable item := by
  have hall := hconverts.forall₂_iff items
  rw [List.filter_true] at hall
  simpa only [Bool.decide_eq_true] using hall

/-- Of items of OpenAI just the encrypted ones are sent. -/
theorem flatMap_ite {A B : Type} (isSigned : A → Prop) [DecidablePred isSigned] (value : A → B)
    (items : List A) :
    (items.flatMap fun item => if isSigned item then [value item] else []) =
      (items.filter isSigned).map value := by
  induction items with
  | nil => rfl
  | cons item items ih =>
      rw [List.flatMap_cons, ih, List.filter_cons]
      by_cases hsigned : isSigned item
      · rw [if_pos hsigned, if_pos (decide_eq_true hsigned)]
        rfl
      · rw [if_neg hsigned, if_neg (by simpa using hsigned)]
        rfl

/-- What is sent of a response is sent of its events. -/
theorem sentBlocks_eq {events : List ModelStreamEvent}
    {values : AssistantResponseBlock → List Value}
    (hvalues : sentBlock (response.encodeItem toStr oauth (replayTarget request.model).1
      (replayTarget request.model).2) response.isSigned (replayTarget request.model).1
        (replayTarget request.model).2 (readResponse request events) = values)
    (hquiet : ∀ text, values (.text text) = []) :
    response.sentBlocks toStr oauth request events = events.flatMap (·.sent values) := by
  rw [sentBlocks, hvalues, flatMap_readBlocks hquiet]

theorem source_foldl_parts (parts : List ModelPart) (reading : Reading) :
    let last := (parts.map ModelPart.event).foldl Reading.take reading
    last.response.provider = reading.response.provider ∧
      last.response.model = reading.response.model := by
  induction parts generalizing reading with
  | nil => exact ⟨rfl, rfl⟩
  | cons part parts ih =>
      obtain ⟨hprovider, hmodel⟩ := ih (reading.take part.event)
      rw [List.map_cons, List.foldl_cons]
      cases part <;> exact ⟨hprovider, hmodel⟩

variable (request) in
/-- What is read of a response is the provider's and the model's. -/
theorem source_readResponse (result : ModelResponse) :
    (readResponse request result.events).provider = result.provider ∧
      (readResponse request result.events).model = result.model := by
  rw [readResponse, ModelResponse.events, List.foldl_append, List.foldl_append]
  exact source_foldl_parts result.parts _

/-- What is sent of a response of OpenAI. -/
theorem openai_sentBlocks (hopenai : ∀ provider model,
      response.encodeItem toStr oauth provider model = Openai.encode toStr provider model)
    (hsigned : response.isSigned = Openai.isSigned)
    (hprovider : (replayTarget request.model).1 = "openai" ∨
      (replayTarget request.model).1 = "openai-codex") (events : List ModelStreamEvent) :
    response.sentBlocks toStr oauth request events =
      events.flatMap (·.sent (Openai.sentState (replayTarget request.model).1
        (replayTarget request.model).2)) := by
  apply sentBlocks_eq _ fun _ => rfl
  rw [hopenai, hsigned]
  exact Openai.sentBlock_eq hprovider _

theorem flatMap_sent_parse {body : Value} {result : ModelResponse} {provider model : String}
    (hresult : Openai.parse library provider model body = .ok result) :
    result.events.flatMap (·.sent (Openai.sentState provider model)) =
      ((body.items "output").getD []).filter Openai.isSigned := by
  rw [Openai.parse] at hresult
  split at hresult
  · cases hresult
  · next output houtput =>
      cases hresult
      have hitem := Openai.flatMap_itemParts library provider model
      have hsent := flatMap_ite (fun item => Openai.isSigned item = true) id output
      simp only [List.flatMap_map] at hitem
      rw [List.map_id] at hsent
      rw [flatMap_sent_events, List.flatMap_assoc, houtput, Option.getD_some]
      simp only [hitem]
      simpa only [Bool.decide_eq_true, id_eq] using hsent

theorem openaiStream_sentBlocks {chunks : List (Except String (List UInt8))}
    {events : List ModelStreamEvent}
    (hprovider : (replayTarget request.model).1 = "openai" ∨
      (replayTarget request.model).1 = "openai-codex")
    (hevents : (ProviderResponse.openaiStream chunks).accepted library
      (replayTarget request.model).1 (replayTarget request.model).2 = some events) :
    (ProviderResponse.openaiStream chunks).sentBlocks toStr oauth request events =
      (ProviderResponse.openaiStream chunks).signedItems library request := by
  obtain ⟨hcomplete, hitems⟩ := completeItems_eq_some hevents
  have hsent := Openai.openaiResponseStream_complete library (replayTarget request.model).1
    (replayTarget request.model).2 chunks hcomplete
  rw [hitems] at hsent
  have hmapped := List.map_injective_iff.mpr (fun _ _ => Except.ok.inj) hsent
  rw [openai_sentBlocks (fun _ _ => rfl) rfl hprovider, hmapped, List.flatMap_cons, List.flatMap_assoc]
  simp only [Openai.flatMap_eventItems]
  rw [flatMap_ite]
  rfl

theorem flatMap_filterMap {A B C : Type} (parse : A → Option B) (sent : B → List C)
    (items : List A) :
    (items.filterMap parse).flatMap sent =
      items.flatMap fun item => ((parse item).map sent).getD [] := by
  rw [List.filterMap_eq_flatMap_toList, List.flatMap_assoc]
  apply List.flatMap_congr
  intro item _
  cases parse item with
  | none => rfl
  | some parsed => exact List.flatMap_singleton sent parsed

theorem anthropic_sentBlocks {tools : List ToolDefinition} {body : Value}
    {events : List ModelStreamEvent} (hprovider : (replayTarget request.model).1 = "anthropic")
    (hresponse : (readResponse request events).provider = "anthropic")
    (hmodel : (readResponse request events).model = (replayTarget request.model).2) :
    (ProviderResponse.anthropic tools body).sentBlocks toStr oauth request events =
      events.flatMap (·.sent (Anthropic.sentThought (replayTarget request.model).2)) := by
  apply sentBlocks_eq _ fun _ => rfl
  rw [hprovider]
  exact Anthropic.sentBlock_eq hresponse hmodel

theorem anthropic_sameItem_iff {tools : List ToolDefinition} {body : Value} {result : ModelResponse}
    (hprovider : (replayTarget request.model).1 = "anthropic")
    (hresult : Anthropic.parse (replayTarget request.model).2 tools body = .ok result) :
    List.Forall₂ Anthropic.SameItem (((body.items "content").getD []).filter Anthropic.isSigned)
        ((ProviderResponse.anthropic tools body).sentBlocks toStr oauth request result.events) ↔
      ∀ item ∈ ((body.items "content").getD []).filter Anthropic.isSigned,
        Anthropic.Readable item := by
  have hsource := source_readResponse request result
  rw [Anthropic.parse] at hresult
  split at hresult
  · cases hresult
  · next content hcontent =>
      cases hresult
      rw [anthropic_sentBlocks hprovider hsource.1 hsource.2, flatMap_sent_events,
        flatMap_filterMap, hcontent]
      exact forall₂_converts (Anthropic.converts_sentOf _ tools) content

theorem gemini_sentBlocks {newIds : Nat → String} {body : Value}
    {events : List ModelStreamEvent} (hprovider : (replayTarget request.model).1 = "google")
    (hresponse : (readResponse request events).provider = "google")
    (hmodel : (readResponse request events).model = (replayTarget request.model).2) :
    (ProviderResponse.gemini newIds body).sentBlocks toStr oauth request events =
      events.flatMap (·.sent (Gemini.sentPart (replayTarget request.model).2)) := by
  apply sentBlocks_eq _ fun _ => rfl
  rw [hprovider]
  exact Gemini.sentBlock_eq hresponse hmodel

theorem gemini_sameItem_iff {newIds : Nat → String} {body : Value} {result : ModelResponse}
    (hprovider : (replayTarget request.model).1 = "google")
    (hresult : Gemini.parse newIds (replayTarget request.model).2 body = .ok result) :
    List.Forall₂ Gemini.SameItem (((Gemini.candidateParts body).getD []).filter Gemini.isSigned)
        ((ProviderResponse.gemini newIds body).sentBlocks toStr oauth request result.events) ↔
      ∀ part ∈ ((Gemini.candidateParts body).getD []).filter Gemini.isSigned,
        Gemini.Readable part := by
  have hsource := source_readResponse request result
  rw [Gemini.parse] at hresult
  split at hresult
  · cases hresult
  · next parts hparts =>
      cases hresult
      have hplaced : parts.filter Gemini.isSigned =
          (parts.zipIdx.filter fun part => Gemini.isSigned part.1).map Prod.fst := by
        conv_lhs => rw [← List.zipIdx_map_fst 0 parts, List.filter_map]
        rfl
      rw [gemini_sentBlocks hprovider hsource.1 hsource.2, flatMap_sent_events, flatMap_filterMap,
        hparts, Option.getD_some, hplaced, List.forall₂_map_left_iff, List.forall_mem_map]
      exact forall₂_converts (Gemini.converts_placed newIds _) parts.zipIdx

/-- The signed items return exactly if all of an accepted response are readable. -/
theorem signedItemsReturn_iff (library : StreamLibrary) (toStr : Value → String) (oauth : Bool)
    (request : ModelRequest) (response : ProviderResponse) :
    response.SignedItemsReturn library toStr oauth request ↔
      (response.ComesFrom (replayTarget request.model).1 →
        (response.accepted library (replayTarget request.model).1
          (replayTarget request.model).2).isSome = true →
        ∀ item ∈ response.signedItems library request, response.ReadableItem item) := by
  rw [signedItemsReturn_iff_forall₂]
  apply imp_congr_right
  intro hfrom
  apply accepted_iff
  intro events hevents
  cases response with
  | openai body =>
      obtain ⟨result, hresult, rfl⟩ := Option.map_eq_some_iff.mp hevents
      rw [openai_sentBlocks (fun _ _ => rfl) rfl hfrom, flatMap_sent_parse (eq_ok_of_toOption hresult)]
      exact iff_of_true (List.forall₂_same.mpr fun _ _ => rfl) fun _ _ => trivial
  | codex body =>
      obtain ⟨result, hresult, rfl⟩ := Option.map_eq_some_iff.mp hevents
      obtain ⟨completed, hcompleted, hparse⟩ := Openai.parseBlocks_ok (eq_ok_of_toOption hresult)
      rw [openai_sentBlocks (fun _ _ => rfl) rfl hfrom, flatMap_sent_parse hparse, signedItems, hcompleted]
      exact iff_of_true (List.forall₂_same.mpr fun _ _ => rfl) fun _ _ => trivial
  | openaiStream chunks =>
      rw [openaiStream_sentBlocks hfrom hevents]
      exact iff_of_true (List.forall₂_same.mpr fun _ _ => rfl) fun _ _ => trivial
  | anthropic tools body =>
      obtain ⟨result, hresult, rfl⟩ := Option.map_eq_some_iff.mp hevents
      exact anthropic_sameItem_iff hfrom (eq_ok_of_toOption hresult)
  | gemini newIds body =>
      obtain ⟨result, hresult, rfl⟩ := Option.map_eq_some_iff.mp hevents
      exact gemini_sameItem_iff hfrom (eq_ok_of_toOption hresult)

end Replay

end ProviderResponse

/-! ## A text with a signature -/

namespace SignedText

def library : StreamLibrary where
  fromStr := fun _ => .error "expected value at line 1 column 1"
  utf8Error := fun _ => ""

def request : ModelRequest where
  model := "google/gemini-3-pro"
  reasoning := none
  system := ""
  messages := []
  tools := []
  continuation := none

def part : Value := .object [("text", .string "Done."), ("thoughtSignature", .string "c2lnbmVk")]

def body : Value :=
  .object [("candidates", .array [.object [("content", .object [("parts", .array [part])])]])]

/-- The text is sent again without its signature. -/
theorem signature_lost : ¬∀ response : ProviderResponse,
    response.SignedItemsReturn library (fun _ => "") false request := by
  intro hreturn
  have hresponse := hreturn (.gemini (fun _ => "new") body)
  rw [ProviderResponse.signedItemsReturn_iff_forall₂] at hresponse
  have hlength := (hresponse rfl _ rfl).length_eq
  revert hlength
  decide

end SignedText

end Mews
