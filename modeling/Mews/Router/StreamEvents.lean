import Mews.Router.ToolCalls

/-!
# The events of a complete stream

A stream is accepted as complete when its last item is the end of the response.  Then
everything that was sent is what its events are read as, one after the other.
-/

namespace Mews.Openai

open Protocol HostProtocol

section Events

variable (library : StreamLibrary) (provider model : String)

/-- The event of a frame, if it has one. -/
def frameEvent (block : List UInt8) : Option Value :=
  match String.fromUTF8? (ByteArray.mk block.toArray) with
  | none => none
  | some text =>
      match dataLine (text.toList.filter (· ≠ '\r')) with
      | none | some "[DONE]" => none
      | some data => (library.fromStr data).toOption

/-- What is sent of an event. -/
def eventItems (event : Value) : List ModelStreamEvent :=
  match readEvent library provider model event with
  | .next item => item.toList
  | .last items => items.filterMap Except.toOption

/-- The events of the frames that were read. -/
def streamEvents (output : StreamOutput) : List Value := output.blocks.filterMap (frameEvent library)

/-- The last item is the end of the response. -/
def Complete (items : List StreamItem) : Prop := items.getLast? = some (.ok .done)

/-- What was sent is what the events are read as, if the response is complete. -/
structure SentEvents (output : StreamOutput) : Prop where
  some : output.items ≠ []
  complete : Complete output.items → output.items =
    ((streamEvents library output).flatMap (eventItems library provider model)).map .ok

variable {library provider model}

theorem SentEvents.failed (blocks : List (List UInt8)) (error : ProviderError) :
    SentEvents library provider model { blocks, items := [.error error] } := by
  constructor
  · exact List.cons_ne_nil _ _
  · intro hcomplete
    cases hcomplete

variable (library provider model) in
/-- A frame that is read is skipped, or its event is read. -/
theorem readFrame_cases (block : List UInt8) :
    (frameEvent library block = none ∧
      (readFrame library provider model block = .next none ∨
        ∃ error, readFrame library provider model block = .last [.error error])) ∨
    ∃ event, frameEvent library block = some event ∧
      readFrame library provider model block = readEvent library provider model event := by
  rw [frameEvent, readFrame]
  cases String.fromUTF8? (ByteArray.mk block.toArray) with
  | none => exact Or.inl ⟨rfl, Or.inr ⟨_, rfl⟩⟩
  | some text =>
      dsimp only
      cases dataLine (text.toList.filter (· ≠ '\r')) with
      | none => exact Or.inl ⟨rfl, Or.inl rfl⟩
      | some data =>
          by_cases hdone : data = "[DONE]"
          · subst hdone
            exact Or.inl ⟨rfl, Or.inl rfl⟩
          · simp only
            cases library.fromStr data with
            | error error => exact Or.inl ⟨rfl, Or.inr ⟨_, rfl⟩⟩
            | ok event => exact Or.inr ⟨event, rfl, rfl⟩

/-- The end of a response is announced by the event that completes it. -/
theorem readEvent_last {event : Value} {items : List StreamItem}
    (hread : readEvent library provider model event = .last items) :
    items ≠ [] ∧ (Complete items → items = (eventItems library provider model event).map .ok) := by
  rw [eventItems, hread]
  rw [readEvent] at hread
  split at hread
  · cases hread
    exact ⟨List.cons_ne_nil _ _, fun hcomplete => by cases hcomplete⟩
  · cases hread
    exact ⟨List.cons_ne_nil _ _, fun hcomplete => by cases hcomplete⟩
  · cases hread
    exact ⟨List.cons_ne_nil _ _, fun hcomplete => by cases hcomplete⟩
  · cases hread
  · cases hread
  · cases hread
  · cases hread
  · cases hread
    exact ⟨List.cons_ne_nil _ _, fun _ => rfl⟩
  · cases hread

theorem SentEvents.last {block : List UInt8} {items : List StreamItem}
    (hread : readFrame library provider model block = .last items) :
    SentEvents library provider model { blocks := [block], items } := by
  rcases readFrame_cases library provider model block with
    ⟨-, hnext | ⟨error, hlast⟩⟩ | ⟨event, hevent, hframe⟩
  · rw [hread] at hnext
    cases hnext
  · rw [hread] at hlast
    cases hlast
    exact .failed _ _
  · rw [hread] at hframe
    obtain ⟨hsome, hcomplete⟩ := readEvent_last hframe.symm
    refine ⟨hsome, fun hend => ?_⟩
    rw [streamEvents, List.filterMap_cons_some hevent, List.filterMap_nil, List.flatMap_singleton]
    exact hcomplete hend

theorem SentEvents.after {output : StreamOutput} (hsent : SentEvents library provider model output)
    {block : List UInt8} {item : Option ModelStreamEvent}
    (hread : readFrame library provider model block = .next item) :
    SentEvents library provider model (output.after block item) := by
  have hitems : (frameEvent library block).toList.flatMap (eventItems library provider model) =
      item.toList := by
    rcases readFrame_cases library provider model block with
      ⟨hnone, hnext | ⟨error, hlast⟩⟩ | ⟨event, hevent, hframe⟩
    · rw [hread] at hnext
      cases hnext
      rw [hnone]
      rfl
    · rw [hread] at hlast
      cases hlast
    · rw [hevent, Option.toList_some, List.flatMap_singleton, eventItems, ← hframe, hread]
  refine ⟨List.append_ne_nil_of_right_ne_nil _ hsent.some, fun hcomplete => ?_⟩
  have hend : Complete output.items := by
    rw [Complete, StreamOutput.after, List.getLast?_append_of_ne_nil _ hsent.some] at hcomplete
    exact hcomplete
  have hevents : streamEvents library (output.after block item) =
      (frameEvent library block).toList ++ streamEvents library output := by
    rw [streamEvents, StreamOutput.after, List.filterMap_cons]
    cases frameEvent library block <;> rfl
  rw [hevents, List.flatMap_append, hitems, List.map_append, ← hsent.complete hend]
  rfl

theorem sentEvents_drainFrames {read : List UInt8 → StreamOutput}
    (hread : ∀ rest, SentEvents library provider model (read rest)) (fuel : Nat)
    (buffer : List UInt8) :
    SentEvents library provider model (drainFrames library provider model read fuel buffer) := by
  induction fuel generalizing buffer with
  | zero => exact hread buffer
  | succ fuel ih =>
      rw [drainFrames]
      split
      · exact hread buffer
      · split_ifs with hlarge
        · exact .failed _ _
        · split
          · next hframe => exact .last hframe
          · next hframe => exact (ih _).after hframe

theorem sentEvents_readChunks (chunks : List (Except String (List UInt8))) (buffer : List UInt8) :
    SentEvents library provider model (readChunks library provider model chunks buffer) := by
  induction chunks generalizing buffer with
  | nil => exact .failed _ _
  | cons chunk chunks ih =>
      cases chunk with
      | error error => exact .failed _ _
      | ok chunk =>
          apply sentEvents_drainFrames
          intro rest
          split_ifs
          · exact .failed _ _
          · exact ih rest

variable (library provider model) in
/-- What is sent of a complete stream is the start and what its events are read as. -/
theorem openaiResponseStream_complete (chunks : List (Except String (List UInt8)))
    (hcomplete : Complete (openaiResponseStream library provider model chunks).items) :
    (openaiResponseStream library provider model chunks).items =
      (.start :: (streamEvents library (openaiResponseStream library provider model chunks)).flatMap
        (eventItems library provider model)).map .ok := by
  have hsent : SentEvents library provider model (readChunks library provider model chunks []) :=
    sentEvents_readChunks chunks []
  have hend : Complete (readChunks library provider model chunks []).items := by
    obtain ⟨first, rest, hitems⟩ := List.exists_cons_of_ne_nil hsent.some
    rw [Complete, openaiResponseStream] at hcomplete
    rw [Complete, hitems]
    simp only [hitems, List.getLast?_cons_cons] at hcomplete
    exact hcomplete
  rw [List.map_cons]
  exact congrArg _ (hsent.complete hend)

/-! ## Calls in a stream -/

/-- The item that an event announces. -/
def eventItem (event : Value) : Value := (event.get "item").getD .null

/-- The event announces a call that is complete. -/
def isCallEvent (event : Value) : Prop :=
  event.text "type" = some "response.output_item.done" ∧ isCall (eventItem event)

instance : DecidablePred isCallEvent := fun _ => instDecidableAnd

theorem eventItems_done {event : Value}
    (htype : event.text "type" = some "response.output_item.done") :
    eventItems library provider model event = (outputItem library provider model event).toList := by
  rw [eventItems, readEvent, htype]
  rfl

theorem itemType_eq (event : Value) :
    (event.pointer ["item", "type"]).bind Value.asStr = (eventItem event).text "type" := by
  have hpointer : event.pointer ["item", "type"] =
      (event.get "item").bind fun item => item.get "type" := by
    simp [Value.pointer]
  rw [hpointer, eventItem]
  cases event.get "item" with
  | none => rfl
  | some item => rfl

theorem outputItem_call {event : Value} (hcall : isCall (eventItem event)) :
    outputItem library provider model event =
      (callPart library (eventItem event)).map ModelPart.event := by
  rw [outputItem, itemType_eq, hcall, ← functionCall_eq, eventItem]
  cases hitem : event.get "item" with
  | none =>
      rw [isCall, eventItem, hitem] at hcall
      exact absurd hcall (by simp [Value.text, Value.get])
  | some item => rfl

theorem isToolCall_outputItem {event : Value} (hother : ¬isCall (eventItem event))
    {item : ModelStreamEvent} (hitem : outputItem library provider model event = some item) :
    item.isToolCall = false := by
  rw [outputItem, itemType_eq] at hitem
  split at hitem
  · next htype => exact absurd htype hother
  · obtain ⟨value, -, hstate⟩ := Option.bind_eq_some_iff.mp hitem
    rw [encryptedReasoning] at hstate
    split at hstate
    · cases hstate
    · cases hstate
    · cases hstate
      rfl
  · cases hitem

variable (library provider model) in
/-- What is made of an event of a stream. -/
theorem converts_eventItems :
    Converts isCallEvent (fun event => Readable (HasCall library) (eventItem event))
      ModelStreamEvent.isToolCall (DeliveredAs fun event => HasCall library (eventItem event))
      (eventItems library provider model) := by
  apply converts_events
  · intro event hother sent hsent
    rw [eventItems, readEvent] at hsent
    split at hsent
    · next item hread =>
        rw [Option.mem_toList] at hsent
        subst hsent
        split at hread
        · cases hread
        · cases hread
        · cases hread
        · obtain ⟨response, -, rfl⟩ := Option.map_eq_some_iff.mp (FrameStep.next.inj hread)
          rfl
        · obtain ⟨delta, -, rfl⟩ := Option.map_eq_some_iff.mp (FrameStep.next.inj hread)
          rfl
        · obtain ⟨delta, -, rfl⟩ := Option.map_eq_some_iff.mp (FrameStep.next.inj hread)
          rfl
        · next htype =>
            have hitem : ¬isCall (eventItem event) := fun hcall => hother ⟨htype, hcall⟩
            exact isToolCall_outputItem hitem (FrameStep.next.inj hread)
        · cases hread
        · cases hread
    · next items hread =>
        split at hread
        all_goals cases hread
        · exact absurd hsent List.not_mem_nil
        · exact absurd hsent List.not_mem_nil
        · exact absurd hsent List.not_mem_nil
        · rcases List.mem_cons.mp hsent with rfl | hdone
          · rfl
          · rw [List.mem_singleton.mp hdone]
            rfl
  · rintro event ⟨htype, hcall⟩ ⟨id, name, arguments, hhas⟩
    have hpart := callPart_eq_some_iff.mpr ⟨id, name, arguments, hhas, rfl⟩
    refine ⟨id, name, arguments, none, hhas, ?_⟩
    rw [eventItems_done htype, outputItem_call hcall, hpart]
    rfl
  · rintro event ⟨htype, hcall⟩ hlost sent hsent
    rw [eventItems_done htype, outputItem_call hcall, Option.mem_toList] at hsent
    obtain ⟨part, hpart, -⟩ := Option.map_eq_some_iff.mp hsent
    obtain ⟨id, name, arguments, hhas, -⟩ := callPart_eq_some_iff.mp hpart
    exact absurd ⟨id, name, arguments, hhas⟩ hlost

end Events

/-! ## The completed response of Codex -/

section Codex

variable (library : StreamLibrary)

/-- The event of a block, if it has one. -/
def blockEvent (block : List Char) : Option Value :=
  match blockData block with
  | none | some "[DONE]" => none
  | some data => (library.fromStr data).toOption

/-- The response in the first event that completes one. -/
def completedResponse (blocks : List (List Char)) : Option Value :=
  ((blocks.filterMap (blockEvent library)).find? fun event =>
    event.text "type" = some "response.completed").bind fun event => event.get "response"

variable {library} {provider model : String}

theorem blockEvent_data {block : List Char} {data : String} (hdata : blockData block = some data)
    (hdone : data ≠ "[DONE]") : blockEvent library block = (library.fromStr data).toOption := by
  rw [blockEvent, hdata]
  split
  · next hnone => exact absurd hnone (Option.some_ne_none data)
  · next hsame => exact absurd (Option.some.inj hsame) hdone
  · next other _ hsame => rw [Option.some.inj hsame]

theorem parseBlocks_ok {blocks : List (List Char)} {result : ModelResponse}
    (hresult : parseBlocks library provider model blocks = .ok result) :
    ∃ response, completedResponse library blocks = some response ∧
      parse library provider model response = .ok result := by
  induction blocks with
  | nil => cases hresult
  | cons block blocks ih =>
      rw [parseBlocks] at hresult
      have hskip : blockEvent library block = none →
          completedResponse library (block :: blocks) = completedResponse library blocks := by
        intro hnone
        rw [completedResponse, List.filterMap_cons_none hnone, ← completedResponse]
      split_ifs at hresult
      split at hresult
      · next hdata =>
          rw [hskip (by rw [blockEvent, hdata])]
          exact ih hresult
      · next hdata =>
          rw [hskip (by rw [blockEvent, hdata]; rfl)]
          exact ih hresult
      · next data hdone hdata =>
          split at hresult
          · cases hresult
          · next event hjson =>
              have hevent : blockEvent library block = some event := by
                rw [blockEvent_data hdata hdone, hjson]
                rfl
              rw [completedResponse, List.filterMap_cons_some hevent, List.find?_cons]
              split at hresult
              · next htype =>
                  rw [htype]
                  split at hresult
                  · cases hresult
                  · next response hresponse => exact ⟨response, hresponse, hresult⟩
              · cases hresult
              · cases hresult
              · cases hresult
              · next htype _ _ _ =>
                  have hother : decide (event.text "type" = some "response.completed") = false :=
                    decide_eq_false htype
                  rw [hother]
                  exact ih hresult

end Codex

end Mews.Openai
