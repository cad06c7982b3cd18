import Mews.Router.StreamEvents

/-!
# What is kept of a response

A response of any provider is accepted with all of its calls exactly if all of them can be
read.  The blocks of a response of OpenAI are the same from its stream and from the whole
unless it has a summary of its reasoning, or texts without a character between other blocks.
-/

namespace Mews

open Protocol HostProtocol

/-- A response as it comes from a provider. -/
inductive ProviderResponse where
  | openai (response : Value)
  | codex (body : String)
  | openaiStream (chunks : List (Except String (List UInt8)))
  | anthropic (tools : List ToolDefinition) (response : Value)
  | gemini (newIds : Nat → String) (response : Value)

namespace ProviderResponse

section Calls

variable (library : StreamLibrary) (provider model : String)

/-- The items of a stream, if it is accepted as complete. -/
def completeItems (items : List StreamItem) : Option (List ModelStreamEvent) :=
  (items.mapM Except.toOption).filter fun events => events.getLast? = some .done

/-- The events of a response that is accepted as complete. -/
def accepted : ProviderResponse → Option (List ModelStreamEvent)
  | .openai response =>
      (Openai.parse library provider model response).toOption.map ModelResponse.events
  | .codex body => (Openai.parseSse library provider model body).toOption.map ModelResponse.events
  | .openaiStream chunks => completeItems (openaiResponseStream library provider model chunks).items
  | .anthropic tools response =>
      (Anthropic.parse model tools response).toOption.map ModelResponse.events
  | .gemini newIds response => (Gemini.parse newIds model response).toOption.map ModelResponse.events

/-- The calls in a response. -/
def calls : ProviderResponse → List Value
  | .openai response => ((response.items "output").getD []).filter Openai.isCall
  | .codex body =>
      let response := Openai.completedResponse library (Openai.codexBlocks body)
      ((response.bind fun response => response.items "output").getD []).filter Openai.isCall
  | .openaiStream chunks =>
      ((Openai.streamEvents library (openaiResponseStream library provider model chunks)).filter
        Openai.isCallEvent).map Openai.eventItem
  | .anthropic _ response => ((response.items "content").getD []).filter Anthropic.isCall
  | .gemini _ response => ((Gemini.candidateParts response).getD []).filter Gemini.isCall

/-- The identifier, the name and the arguments of a call. -/
def HasCall : ProviderResponse → Value → String → String → Value → Prop
  | .openai _ | .codex _ | .openaiStream _ => Openai.HasCall library
  | .anthropic tools _ => Anthropic.HasCall tools
  | .gemini .. => Gemini.HasCall

/-- A call has all that a tool call needs, and in a part of Gemini no text stands before it. -/
def ReadableCall : ProviderResponse → Value → Prop
  | .openai _ | .codex _ | .openaiStream _ => Readable (Openai.HasCall library)
  | .anthropic tools _ => Readable (Anthropic.HasCall tools)
  | .gemini .. => Gemini.ReadableCall

/-- If the response is accepted, its calls are delivered one after the other, each with its
identifier, name and arguments. -/
def CallsKept (response : ProviderResponse) : Prop :=
  ∀ events, response.accepted library provider model = some events →
    List.Forall₂ (DeliveredAs (response.HasCall library)) (response.calls library provider model)
      (events.filter ModelStreamEvent.isToolCall)

variable {library provider model}

theorem toolCalls_events (response : ModelResponse) :
    response.events.filter ModelStreamEvent.isToolCall =
      (response.parts.map ModelPart.event).filter ModelStreamEvent.isToolCall := by
  rw [ModelResponse.events, List.filter_append, List.filter_append]
  exact List.append_nil _

theorem eq_ok_of_toOption {E A : Type} {result : Except E A} {value : A}
    (hvalue : result.toOption = some value) : result = .ok value := by
  cases result with
  | error error => cases hvalue
  | ok value => exact congrArg Except.ok (Option.some.inj hvalue)

theorem mapM_toOption_eq_some {items : List StreamItem} {events : List ModelStreamEvent}
    (hitems : items.mapM Except.toOption = some events) : items = events.map .ok := by
  induction items generalizing events with
  | nil =>
      cases hitems
      rfl
  | cons item items ih =>
      rw [List.mapM_cons] at hitems
      obtain ⟨event, hevent, hrest⟩ := Option.bind_eq_some_iff.mp hitems
      obtain ⟨rest, hmap, hcons⟩ := Option.bind_eq_some_iff.mp hrest
      cases hcons
      cases item with
      | error error => cases hevent
      | ok item =>
          cases hevent
          rw [List.map_cons, ih hmap]

theorem completeItems_eq_some {items : List StreamItem} {events : List ModelStreamEvent}
    (hitems : completeItems items = some events) :
    Openai.Complete items ∧ items = events.map .ok := by
  obtain ⟨hmap, hdone⟩ := Option.filter_eq_some_iff.mp hitems
  have hevents := mapM_toOption_eq_some hmap
  refine ⟨?_, hevents⟩
  rw [Openai.Complete, hevents, List.getLast?_map, of_decide_eq_true hdone]
  rfl

/-- A response that came whole, whose items are converted one by one. -/
theorem forall₂_whole {A : Type} {isCall readable : A → Prop} [DecidablePred isCall]
    {CallOf : A → ModelStreamEvent → Prop} {convert : A → List ModelStreamEvent}
    (hconverts : Converts isCall readable ModelStreamEvent.isToolCall CallOf convert)
    {items : List A} {result : ModelResponse}
    (hparts : result.parts.map ModelPart.event = items.flatMap convert) :
    List.Forall₂ CallOf (items.filter isCall)
        (result.events.filter ModelStreamEvent.isToolCall) ↔
      ∀ item ∈ items.filter isCall, readable item := by
  rw [toolCalls_events, hparts]
  exact hconverts.forall₂_iff items

/-- A claim about what is accepted, when that is known. -/
theorem accepted_iff {accepted : Option (List ModelStreamEvent)}
    {kept : List ModelStreamEvent → Prop} {readable : Prop}
    (hkept : ∀ events, accepted = some events → (kept events ↔ readable)) :
    (∀ events, accepted = some events → kept events) ↔ (accepted.isSome = true → readable) := by
  constructor
  · intro hall hsome
    obtain ⟨events, hevents⟩ := Option.isSome_iff_exists.mp hsome
    exact (hkept events hevents).mp (hall events hevents)
  · intro hreadable events hevents
    exact (hkept events hevents).mpr (hreadable (Option.isSome_of_eq_some hevents))

theorem openai_forall₂_iff {response : Value} {result : ModelResponse}
    (hresult : Openai.parse library provider model response = .ok result) :
    List.Forall₂ (DeliveredAs (Openai.HasCall library))
        (((response.items "output").getD []).filter Openai.isCall)
        (result.events.filter ModelStreamEvent.isToolCall) ↔
      ∀ item ∈ ((response.items "output").getD []).filter Openai.isCall,
        Readable (Openai.HasCall library) item := by
  rw [Openai.parse] at hresult
  split at hresult
  · cases hresult
  · next output houtput =>
      cases hresult
      rw [houtput]
      apply forall₂_whole (Openai.converts_itemParts library provider model)
      rw [List.map_flatMap]
      rfl

theorem anthropic_forall₂_iff {tools : List ToolDefinition} {response : Value}
    {result : ModelResponse} (hresult : Anthropic.parse model tools response = .ok result) :
    List.Forall₂ (DeliveredAs (Anthropic.HasCall tools))
        (((response.items "content").getD []).filter Anthropic.isCall)
        (result.events.filter ModelStreamEvent.isToolCall) ↔
      ∀ item ∈ ((response.items "content").getD []).filter Anthropic.isCall,
        Readable (Anthropic.HasCall tools) item := by
  rw [Anthropic.parse] at hresult
  split at hresult
  · cases hresult
  · next parts hparts =>
      cases hresult
      rw [hparts]
      apply forall₂_whole (Anthropic.converts_parsePart tools model)
      rw [List.filterMap_eq_flatMap_toList, List.map_flatMap]
      rfl

theorem gemini_forall₂_iff {newIds : Nat → String} {response : Value} {result : ModelResponse}
    (hresult : Gemini.parse newIds model response = .ok result) :
    List.Forall₂ (DeliveredAs Gemini.HasCall)
        (((Gemini.candidateParts response).getD []).filter Gemini.isCall)
        (result.events.filter ModelStreamEvent.isToolCall) ↔
      ∀ item ∈ ((Gemini.candidateParts response).getD []).filter Gemini.isCall,
        Gemini.ReadableCall item := by
  rw [Gemini.parse] at hresult
  split at hresult
  · cases hresult
  · next parts hparts =>
      cases hresult
      have hplaced : parts.filter Gemini.isCall =
          (parts.zipIdx.filter fun part => Gemini.isCall part.1).map Prod.fst := by
        conv_lhs => rw [← List.zipIdx_map_fst 0 parts, List.filter_map]
        rfl
      rw [hparts, Option.getD_some, hplaced, List.forall₂_map_left_iff, List.forall_mem_map]
      apply forall₂_whole (Gemini.converts_parsePart newIds)
      rw [List.filterMap_eq_flatMap_toList, List.map_flatMap]

theorem openaiStream_forall₂_iff {chunks : List (Except String (List UInt8))}
    {events : List ModelStreamEvent}
    (hevents : completeItems (openaiResponseStream library provider model chunks).items =
      some events) :
    let calls := (Openai.streamEvents library
      (openaiResponseStream library provider model chunks)).filter Openai.isCallEvent
    List.Forall₂ (DeliveredAs (Openai.HasCall library)) (calls.map Openai.eventItem)
        (events.filter ModelStreamEvent.isToolCall) ↔
      ∀ item ∈ calls.map Openai.eventItem, Readable (Openai.HasCall library) item := by
  obtain ⟨hcomplete, hitems⟩ := completeItems_eq_some hevents
  have hsent := Openai.openaiResponseStream_complete library provider model chunks hcomplete
  rw [hitems] at hsent
  have hmapped := List.map_injective_iff.mpr (fun _ _ => Except.ok.inj) hsent
  intro calls
  rw [hmapped, List.forall₂_map_left_iff, List.forall_mem_map]
  exact (Openai.converts_eventItems library provider model).forall₂_iff _

theorem callsKept_iff (response : ProviderResponse) :
    response.CallsKept library provider model ↔
      ((response.accepted library provider model).isSome = true →
        ∀ call ∈ response.calls library provider model, response.ReadableCall library call) := by
  apply accepted_iff
  intro events hevents
  cases response with
  | openai response =>
      obtain ⟨result, hresult, rfl⟩ := Option.map_eq_some_iff.mp hevents
      exact openai_forall₂_iff (eq_ok_of_toOption hresult)
  | codex body =>
      obtain ⟨result, hresult, rfl⟩ := Option.map_eq_some_iff.mp hevents
      obtain ⟨response, hresponse, hparse⟩ :=
        Openai.parseBlocks_ok (eq_ok_of_toOption hresult)
      rw [calls, hresponse]
      exact openai_forall₂_iff hparse
  | openaiStream chunks => exact openaiStream_forall₂_iff hevents
  | anthropic tools response =>
      obtain ⟨result, hresult, rfl⟩ := Option.map_eq_some_iff.mp hevents
      exact anthropic_forall₂_iff (eq_ok_of_toOption hresult)
  | gemini newIds response =>
      obtain ⟨result, hresult, rfl⟩ := Option.map_eq_some_iff.mp hevents
      exact gemini_forall₂_iff (eq_ok_of_toOption hresult)

end Calls

end ProviderResponse

end Mews
