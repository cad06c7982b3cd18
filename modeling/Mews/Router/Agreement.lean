import Mews.Router.KeptCalls
import Mews.Router.ReadBlocks

/-!
# The stream and the whole

The same response of OpenAI comes as a stream or whole.  A stream announces the texts of an
item in deltas and then the item itself, and completes the response at the end.  What is read
of it is what is parsed of the whole as long as deltas join again, as those of a message do
and those of a summary do not.
-/

namespace Mews.Openai

open Protocol HostProtocol

/-! ## Streams of a response -/

def textDelta : String := "response.output_text.delta"

def summaryDelta : String := "response.reasoning_summary_text.delta"

/-- The texts of an item that are announced in deltas, and of what kind these are. -/
def announced (item : Value) : String × List String :=
  match item.text "type" with
  | some "message" => (textDelta, texts item "content")
  | some "reasoning" => (summaryDelta, texts item "summary")
  | _ => ("", [])

structure IsDelta (kind delta : String) (event : Value) : Prop where
  kind : event.text "type" = some kind
  delta : event.text "delta" = some delta

/-- The texts in deltas, one after the other. -/
inductive Deltas (kind : String) : List String → List Value → Prop
  | nil : Deltas kind [] []
  | text {deltas : List String} {events rest : List Value} {text : String} {texts : List String}
      (hjoin : String.join deltas = text) (hevents : List.Forall₂ (IsDelta kind) deltas events)
      (hrest : Deltas kind texts rest) : Deltas kind (text :: texts) (events ++ rest)

structure IsDone (item event : Value) : Prop where
  kind : event.text "type" = some "response.output_item.done"
  item : event.get "item" = some item

/-- The items of a response, one after the other. -/
inductive Announces : List Value → List Value → Prop
  | nil : Announces [] []
  | item {item done : Value} {items deltas events : List Value}
      (hdeltas : Deltas (announced item).1 (announced item).2 deltas) (hdone : IsDone item done)
      (hrest : Announces items events) : Announces (item :: items) (deltas ++ done :: events)

/-- The event has a part in the blocks of the response or in its end. -/
def speaks (event : Value) : Bool :=
  match event.text "type" with
  | some "response.failed" | some "response.incomplete" | some "error"
  | some "response.output_text.delta" | some "response.reasoning_summary_text.delta"
  | some "response.output_item.done" | some "response.completed" => true
  | _ => false

/-- The events are a complete stream of the response; what has no part in it may come in
between. -/
def Streams (response : Value) (events : List Value) : Prop :=
  ∃ output, response.items "output" = some output ∧ ∃ announced last,
    events.filter speaks = announced ++ [last] ∧ Announces output announced ∧
      last.text "type" = some "response.completed" ∧ last.get "response" = some response

section Agreement

variable (library : StreamLibrary) (provider model : String)

/-- Of every stream of the response the same blocks are read as of the whole. -/
def ParsersAgree (response : Value) : Prop :=
  ∀ result, parse library provider model response = .ok result →
    ∀ events, Streams response events →
      readBlocks (events.flatMap (eventItems library provider model)) = readBlocks result.events

/-- The texts of an item, and a mark for everything else that becomes a block. -/
def shape (item : Value) : List (Bool × String) :=
  match item.text "type" with
  | some "message" => (texts item "content").map (true, ·)
  | some "function_call" => if (callPart library item).isSome then [(false, "")] else []
  | some "reasoning" =>
      (texts item "summary").map (fun _ => (false, "")) ++
        if isEncrypted item then [(false, "")] else []
  | _ => []

/-- There is no summary of reasoning, and of the texts between other blocks one is not empty. -/
structure Plain (output : List Value) : Prop where
  unsummarized : ∀ item ∈ output, item.text "type" = some "reasoning" → texts item "summary" = []
  voiced : ∀ run ∈ Runs.merge (output.flatMap (shape library)), run.1 = true →
    ∃ text ∈ run.2, text ≠ ""

end Agreement

/-! ## Texts in deltas -/

/-- The second list has deltas where the first has texts. -/
inductive Refines : List (Bool × AssistantResponseBlock) → List (Bool × AssistantResponseBlock) →
    Prop
  | nil : Refines [] []
  | block {block : AssistantResponseBlock} {whole cut : List (Bool × AssistantResponseBlock)}
      (hrest : Refines whole cut) : Refines ((false, block) :: whole) ((false, block) :: cut)
  | text {text : String} {deltas : List String}
      {whole cut : List (Bool × AssistantResponseBlock)} (hjoin : String.join deltas = text)
      (hrest : Refines whole cut) :
      Refines ((true, .text text) :: whole)
        (deltas.map (fun delta => (true, .text delta)) ++ cut)

/-- A run with its texts in deltas. -/
structure CutRun (run cutRun : Bool × List AssistantResponseBlock) : Prop where
  key : cutRun.1 = run.1
  blocks : runBlocks cutRun = runBlocks run
  other : run.1 = false → cutRun.2 = run.2

namespace Refines

variable {whole whole' cut cut' : List (Bool × AssistantResponseBlock)}

theorem append (hleft : Refines whole cut) (hright : Refines whole' cut') :
    Refines (whole ++ whole') (cut ++ cut') := by
  induction hleft with
  | nil => exact hright
  | block _ ih => exact .block ih
  | text hjoin _ ih =>
      rw [List.append_assoc]
      exact .text hjoin ih

theorem of_append (hrefines : Refines (whole ++ whole') cut) :
    ∃ left right, cut = left ++ right ∧ Refines whole left ∧ Refines whole' right := by
  induction whole generalizing cut with
  | nil => exact ⟨[], cut, rfl, .nil, hrefines⟩
  | cons piece whole ih =>
      cases hrefines with
      | block hrest =>
          obtain ⟨left, right, rfl, hleft, hright⟩ := ih hrest
          exact ⟨_ :: left, right, rfl, .block hleft, hright⟩
      | text hjoin hrest =>
          obtain ⟨left, right, rfl, hleft, hright⟩ := ih hrest
          exact ⟨_ ++ left, right, (List.append_assoc _ _ _).symm, .text hjoin hleft, hright⟩

/-- A run of other blocks is not cut. -/
theorem of_blocks {blocks : List AssistantResponseBlock}
    (hrefines : Refines (blocks.map (false, ·)) cut) : cut = blocks.map (false, ·) := by
  induction blocks generalizing cut with
  | nil =>
      cases hrefines
      rfl
  | cons block blocks ih =>
      cases hrefines with
      | block hrest => rw [ih hrest, List.map_cons]

/-- A run of texts is cut into deltas that join to the same text. -/
theorem of_texts {blocks : List AssistantResponseBlock}
    (hrefines : Refines (blocks.map (true, ·)) cut) :
    ∃ deltas : List AssistantResponseBlock, cut = deltas.map (true, ·) ∧
      String.join (deltas.map (·.textOf)) = String.join (blocks.map (·.textOf)) := by
  induction blocks generalizing cut with
  | nil =>
      cases hrefines
      exact ⟨[], rfl, rfl⟩
  | cons block blocks ih =>
      cases hrefines with
      | @text text deltas _ _ hjoin hrest =>
          obtain ⟨later, rfl, hlater⟩ := ih hrest
          refine ⟨deltas.map .text ++ later, ?_, ?_⟩
          · rw [List.map_append, List.map_map]
            rfl
          · have htexts : (deltas.map AssistantResponseBlock.text).map (·.textOf) = deltas := by
              rw [List.map_map]
              exact List.map_id deltas
            rw [List.map_append, String.join_append, htexts, hlater, List.map_cons,
              String.join_cons, hjoin]
            rfl

/-- Each run is cut on its own. -/
theorem of_expand {runs : List (Bool × List AssistantResponseBlock)}
    (hrefines : Refines (Runs.expand runs) cut) :
    ∃ cutRuns : List (Bool × List AssistantResponseBlock), cut = Runs.expand cutRuns ∧
      List.Forall₂ CutRun runs cutRuns := by
  induction runs generalizing cut with
  | nil =>
      cases hrefines
      exact ⟨[], rfl, .nil⟩
  | cons run runs ih =>
      obtain ⟨key, blocks⟩ := run
      obtain ⟨left, right, rfl, hleft, hright⟩ := of_append hrefines
      obtain ⟨cutRuns, rfl, hruns⟩ := ih hright
      cases key with
      | false =>
          rw [of_blocks hleft]
          exact ⟨(false, blocks) :: cutRuns, rfl, .cons ⟨rfl, rfl, fun _ => rfl⟩ hruns⟩
      | true =>
          obtain ⟨deltas, rfl, hjoin⟩ := of_texts hleft
          refine ⟨(true, deltas) :: cutRuns, rfl, .cons ⟨rfl, ?_, nofun⟩ hruns⟩
          rw [runBlocks, runBlocks, if_pos rfl, if_pos rfl, hjoin]

end Refines

theorem join_eq_empty_iff {texts : List String} :
    String.join texts = "" ↔ ∀ text ∈ texts, text = "" := by
  induction texts with
  | nil => simp
  | cons text texts ih =>
      rw [String.join_cons, String.append_eq_empty_iff, ih, List.forall_mem_cons]

namespace CutRun

variable {run cutRun : Bool × List AssistantResponseBlock}
  {runs cutRuns : List (Bool × List AssistantResponseBlock)}

/-- A run that is not empty is not cut to nothing. -/
theorem ne_nil (hcut : CutRun run cutRun) (hrun : run.2 ≠ [])
    (hvoiced : run.1 = true → ∃ block ∈ run.2, block.textOf ≠ "") : cutRun.2 ≠ [] := by
  intro hempty
  cases hkey : run.1 with
  | false => exact hrun ((hcut.other hkey).symm.trans hempty)
  | true =>
      obtain ⟨block, hblock, hsome⟩ := hvoiced hkey
      have hblocks := hcut.blocks
      rw [runBlocks, runBlocks, hcut.key, hkey, if_pos rfl, if_pos rfl, hempty] at hblocks
      have hjoin := (AssistantResponseBlock.text.inj (List.singleton_inj.mp hblocks)).symm
      rw [List.map_nil, String.join_nil] at hjoin
      exact hsome (join_eq_empty_iff.mp hjoin _ (List.mem_map_of_mem hblock))

theorem keys_eq (hruns : List.Forall₂ CutRun runs cutRuns) :
    cutRuns.map Prod.fst = runs.map Prod.fst := by
  induction hruns with
  | nil => rfl
  | cons hrun _ ih => rw [List.map_cons, List.map_cons, hrun.key, ih]

theorem flatMap_eq (hruns : List.Forall₂ CutRun runs cutRuns) :
    cutRuns.flatMap runBlocks = runs.flatMap runBlocks := by
  induction hruns with
  | nil => rfl
  | cons hrun _ ih => rw [List.flatMap_cons, List.flatMap_cons, hrun.blocks, ih]

theorem forall_ne_nil (hruns : List.Forall₂ CutRun runs cutRuns)
    (hnonempty : ∀ run ∈ runs, run.2 ≠ [])
    (hvoiced : ∀ run ∈ runs, run.1 = true → ∃ block ∈ run.2, block.textOf ≠ "") :
    ∀ cutRun ∈ cutRuns, cutRun.2 ≠ [] := by
  induction hruns with
  | nil => simp
  | cons hrun _ ih =>
      rw [List.forall_mem_cons] at hnonempty hvoiced
      exact List.forall_mem_cons.mpr
        ⟨hrun.ne_nil hnonempty.1 hvoiced.1, ih hnonempty.2 hvoiced.2⟩

end CutRun

/-- The same blocks are read of texts in deltas if no run of texts is empty. -/
theorem Refines.flatMap_runBlocks {whole cut : List (Bool × AssistantResponseBlock)}
    (hrefines : Refines whole cut)
    (hvoiced : ∀ run ∈ Runs.merge whole, run.1 = true → ∃ block ∈ run.2, block.textOf ≠ "") :
    (Runs.merge cut).flatMap runBlocks = (Runs.merge whole).flatMap runBlocks := by
  have hchain := Runs.isChain_merge whole
  have hnonempty := Runs.ne_nil_of_mem_merge whole
  rw [← Runs.expand_merge whole] at hrefines
  obtain ⟨cutRuns, rfl, hruns⟩ := hrefines.of_expand
  have hcutChain : cutRuns.IsChain fun run next => run.1 ≠ next.1 := by
    rw [← List.isChain_map Prod.fst (R := (· ≠ ·)), CutRun.keys_eq hruns, List.isChain_map]
    exact hchain
  rw [Runs.merge_expand hcutChain (CutRun.forall_ne_nil hruns hnonempty hvoiced),
    CutRun.flatMap_eq hruns]

/-! ## One item -/

/-- The event that a delta is sent as. -/
def deltaItem (kind delta : String) : ModelStreamEvent :=
  if kind = textDelta then .textDelta delta else .reasoning delta none

section Items

variable (library : StreamLibrary) (provider model : String)

/-- What is sent of an item when it is done. -/
def closing (item : Value) : List ModelStreamEvent :=
  match item.text "type" with
  | some "function_call" => (callPart library item).toList.map ModelPart.event
  | some "reasoning" => if isEncrypted item then [.providerState provider model item] else []
  | _ => []

/-- The kinds of items that are told apart. -/
theorem kind_cases (item : Value) :
    item.text "type" = some "message" ∨ item.text "type" = some "function_call" ∨
      item.text "type" = some "reasoning" ∨ (item.text "type" ≠ some "message" ∧
        item.text "type" ≠ some "function_call" ∧ item.text "type" ≠ some "reasoning") := by
  tauto

section Other

variable {library provider model} {item : Value} (hmessage : item.text "type" ≠ some "message")
  (hcall : item.text "type" ≠ some "function_call")
  (hreasoning : item.text "type" ≠ some "reasoning")

include hcall hreasoning in
theorem closing_other : closing library provider model item = [] := by
  rw [closing]
  split
  · contradiction
  · contradiction
  · rfl

include hmessage hreasoning in
theorem announced_other : announced item = ("", []) := by
  rw [announced]
  split
  · contradiction
  · contradiction
  · rfl

include hmessage hcall hreasoning in
theorem itemParts_other : itemParts library provider model item = [] := by
  rw [itemParts]
  split
  · contradiction
  · contradiction
  · contradiction
  · rfl

include hmessage hcall hreasoning in
theorem shape_other : shape library item = [] := by
  rw [shape]
  split
  · contradiction
  · contradiction
  · contradiction
  · rfl

end Other

/-- The parts of an item are its texts and what is sent at its end. -/
theorem map_event_itemParts (item : Value) :
    (itemParts library provider model item).map ModelPart.event =
      (announced item).2.map (deltaItem (announced item).1) ++
        closing library provider model item := by
  rcases kind_cases item with hkind | hkind | hkind | ⟨hmessage, hcall, hreasoning⟩
  · simp only [itemParts, announced, closing, hkind, List.map_map]
    exact (List.append_nil _).symm
  · simp only [itemParts, announced, closing, hkind]
    rfl
  · simp only [itemParts, announced, closing, hkind, List.map_append]
    split_ifs <;> simp [ModelPart.event, deltaItem, summaryDelta, textDelta]
  · rw [itemParts_other hmessage hcall hreasoning, announced_other hmessage hreasoning,
      closing_other hcall hreasoning]
    rfl

variable {library provider model}

theorem encryptedReasoning_eq (item : Value) :
    encryptedReasoning provider model item =
      if isEncrypted item then some (.providerState provider model item) else none := by
  rw [encryptedReasoning, isEncrypted]
  split
  · next htext => rw [htext]; rfl
  · next htext => rw [htext]; rfl
  · next text hsome htext =>
      rw [htext, Option.any_some, if_pos]
      simpa using hsome

theorem IsDone.eventItems_eq {item event : Value} (hdone : IsDone item event) :
    eventItems library provider model event = closing library provider model item := by
  have hitem : eventItem event = item := by
    rw [eventItem, hdone.item]
    rfl
  rw [eventItems_done hdone.kind, outputItem, itemType_eq, hitem, hdone.item,
    Option.bind_some, Option.bind_some, functionCall_eq, encryptedReasoning_eq]
  split
  · next hkind => simp only [closing, hkind, Option.toList_map]
  · next hkind =>
      simp only [closing, hkind]
      split_ifs <;> rfl
  · next hcall hreasoning => rw [closing_other hcall hreasoning, Option.toList_none]

theorem IsDelta.eventItems_text {delta : String} {event : Value}
    (hdelta : IsDelta textDelta delta event) :
    eventItems library provider model event = [.textDelta delta] := by
  rw [eventItems, readEvent, hdelta.kind, hdelta.delta]
  rfl

theorem IsDelta.eventItems_summary {delta : String} {event : Value}
    (hdelta : IsDelta summaryDelta delta event) :
    eventItems library provider model event = [.reasoning delta none] := by
  rw [eventItems, readEvent, hdelta.kind, hdelta.delta]
  rfl

variable (library provider model) in
/-- At the end of an item nothing but blocks is sent. -/
theorem exists_closing_pieces (item : Value) : ∃ blocks : List AssistantResponseBlock,
    (closing library provider model item).filterMap (·.piece) = blocks.map (false, ·) := by
  rw [closing]
  split
  · cases hpart : callPart library item with
    | none => exact ⟨[], rfl⟩
    | some part =>
        obtain ⟨id, name, arguments, -, rfl⟩ := callPart_eq_some_iff.mp hpart
        exact ⟨[.toolCall id name arguments none], rfl⟩
  · split_ifs
    · exact ⟨[.opaqueState provider model item], rfl⟩
    · exact ⟨[], rfl⟩
  · exact ⟨[], rfl⟩

/-- The blocks of the events of a response, each with whether it is a text. -/
def pieces (events : List ModelStreamEvent) : List (Bool × AssistantResponseBlock) :=
  events.filterMap (·.piece)

theorem pieces_append (events events' : List ModelStreamEvent) :
    pieces (events ++ events') = pieces events ++ pieces events' :=
  List.filterMap_append

/-- Deltas of texts make of the texts what they join to. -/
theorem Deltas.refines {texts : List String} {events : List Value}
    (hdeltas : Deltas textDelta texts events) :
    Refines (pieces (texts.map (deltaItem textDelta)))
      (pieces (events.flatMap (eventItems library provider model))) := by
  induction hdeltas with
  | nil => exact .nil
  | @text deltas events rest text texts hjoin hevents hrest ih =>
      have hsent : pieces (events.flatMap (eventItems library provider model)) =
          deltas.map fun delta => (true, .text delta) := by
        clear hjoin
        induction hevents with
        | nil => rfl
        | cons hdelta _ ih =>
            rw [List.flatMap_cons, hdelta.eventItems_text, List.map_cons, ← ih]
            rfl
      rw [List.flatMap_append, pieces_append, hsent]
      exact .text hjoin ih

theorem Refines.of_closing (item : Value) :
    Refines (pieces (closing library provider model item))
      (pieces (closing library provider model item)) := by
  obtain ⟨blocks, hblocks⟩ := exists_closing_pieces library provider model item
  rw [pieces, hblocks]
  clear hblocks
  induction blocks with
  | nil => exact .nil
  | cons block blocks ih => exact .block ih

/-- Without a summary only texts are announced in deltas. -/
theorem announced_cases {item : Value}
    (hplain : item.text "type" = some "reasoning" → texts item "summary" = []) :
    (announced item).1 = textDelta ∨ (announced item).2 = [] := by
  rw [announced]
  split
  · exact Or.inl rfl
  · next hkind => exact Or.inr (hplain hkind)
  · exact Or.inr rfl

theorem Announces.refines {output events : List Value} (hannounces : Announces output events)
    (hplain : ∀ item ∈ output, item.text "type" = some "reasoning" → texts item "summary" = []) :
    Refines
      (pieces ((output.flatMap (itemParts library provider model)).map ModelPart.event))
      (pieces (events.flatMap (eventItems library provider model))) := by
  induction hannounces with
  | nil => exact .nil
  | @item item done items deltas events hdeltas hdone hrest ih =>
      rw [List.forall_mem_cons] at hplain
      have hitem : Refines
          (pieces ((announced item).2.map (deltaItem (announced item).1)))
          (pieces (deltas.flatMap (eventItems library provider model))) := by
        rcases announced_cases hplain.1 with htext | hnone
        · rw [htext] at hdeltas ⊢
          exact hdeltas.refines
        · rw [hnone] at hdeltas ⊢
          cases hdeltas
          exact .nil
      rw [List.flatMap_cons, List.map_append, map_event_itemParts, List.flatMap_append,
        List.flatMap_cons, hdone.eventItems_eq]
      simp only [pieces_append, List.append_assoc]
      exact hitem.append ((Refines.of_closing item).append (ih hplain.2))

/-! ## A whole response -/

theorem pieces_silent {event : Value} (hsilent : speaks event = false) :
    pieces (eventItems library provider model event) = [] := by
  rw [speaks] at hsilent
  split at hsilent
  all_goals try cases hsilent
  next hfailed hincomplete herror htext hsummary hdone hcompleted =>
    rw [eventItems, readEvent]
    split
    · next item hread =>
        split at hread
        all_goals try contradiction
        · cases hread
          cases event.get "response" <;> rfl
        · cases hread
          rfl
    · next items hread =>
        split at hread
        all_goals contradiction

theorem pieces_filter_speaks (events : List Value) :
    pieces (events.flatMap (eventItems library provider model)) =
      pieces ((events.filter speaks).flatMap (eventItems library provider model)) := by
  induction events with
  | nil => rfl
  | cons event events ih =>
      rw [List.flatMap_cons, pieces_append, ih]
      by_cases hspeaks : speaks event = true
      · rw [List.filter_cons_of_pos hspeaks, List.flatMap_cons, pieces_append]
      · rw [List.filter_cons_of_neg hspeaks, pieces_silent (Bool.eq_false_of_not_eq_true hspeaks),
          List.nil_append]

theorem pieces_completed {event : Value} (hkind : event.text "type" = some "response.completed") :
    pieces (eventItems library provider model event) = [] := by
  rw [eventItems, readEvent, hkind]
  rfl

theorem pieces_events (response : ModelResponse) :
    pieces response.events = pieces (response.parts.map ModelPart.event) := by
  rw [ModelResponse.events, pieces_append, pieces_append]
  exact List.append_nil _

/-- The shape of an item is that of its parts. -/
theorem shape_eq (item : Value) :
    shape library item = (pieces ((itemParts library provider model item).map
      ModelPart.event)).map (Prod.map id (·.textOf)) := by
  rcases kind_cases item with hkind | hkind | hkind | ⟨hmessage, hcall, hreasoning⟩
  · simp only [shape, itemParts, hkind]
    induction texts item "content" with
    | nil => rfl
    | cons text texts ih => exact congrArg _ ih
  · simp only [shape, itemParts, hkind]
    cases hpart : callPart library item with
    | none => rfl
    | some part =>
        obtain ⟨callId, name, arguments, -, rfl⟩ := callPart_eq_some_iff.mp hpart
        rfl
  · simp only [shape, itemParts, hkind]
    induction texts item "summary" with
    | nil => split_ifs <;> rfl
    | cons text texts ih => exact congrArg _ ih
  · rw [shape_other hmessage hcall hreasoning, itemParts_other hmessage hcall hreasoning]
    rfl

variable (provider model) in
theorem shape_flatMap (output : List Value) :
    output.flatMap (shape library) = (pieces ((output.flatMap
      (itemParts library provider model)).map ModelPart.event)).map (Prod.map id (·.textOf)) := by
  induction output with
  | nil => rfl
  | cons item output ih =>
      rw [List.flatMap_cons, List.flatMap_cons, List.map_append, pieces_append, List.map_append,
        ← ih, ← shape_eq]

/-- The texts of a response that came whole come in runs that are not empty. -/
theorem Plain.voiced_pieces {output : List Value} (hplain : Plain library output) :
    ∀ run ∈ Runs.merge (pieces ((output.flatMap
      (itemParts library provider model)).map ModelPart.event)),
      run.1 = true → ∃ block ∈ run.2, block.textOf ≠ "" := by
  intro run hrun htext
  have hshape := hplain.voiced (Prod.map id (List.map (·.textOf)) run) (by
    rw [shape_flatMap provider model, Runs.merge_map_snd]
    exact List.mem_map_of_mem hrun) htext
  obtain ⟨text, hmem, hsome⟩ := hshape
  obtain ⟨block, hblock, rfl⟩ := List.mem_map.mp hmem
  exact ⟨block, hblock, hsome⟩

/-- Of a stream of a plain response the blocks of the whole are read. -/
theorem Plain.parsersAgree {response : Value} {output : List Value}
    (houtput : response.items "output" = some output) (hplain : Plain library output) :
    ParsersAgree library provider model response := by
  rintro result hresult events ⟨streamed, hstreamed, announced, last, hfilter, hannounces,
    hkind, -⟩
  obtain rfl : output = streamed := Option.some.inj (houtput.symm.trans hstreamed)
  rw [parse, houtput] at hresult
  cases hresult
  rw [readBlocks_eq, readBlocks_eq, ← pieces, ← pieces, pieces_events, pieces_filter_speaks,
    hfilter, List.flatMap_append, pieces_append, List.flatMap_singleton, pieces_completed hkind,
    List.append_nil]
  exact (hannounces.refines hplain.unsummarized).flatMap_runBlocks hplain.voiced_pieces

end Items

/-! ## Streams that are read otherwise -/

def deltaValue (kind delta : String) : Value :=
  .object [("delta", .string delta), ("type", .string kind)]

def doneValue (item : Value) : Value :=
  .object [("item", item), ("type", .string "response.output_item.done")]

def completedValue (response : Value) : Value :=
  .object [("response", response), ("type", .string "response.completed")]

/-- An item, its texts in the deltas that `cut` makes of them. -/
def itemStream (cut : String → String → List String) (item : Value) : List Value :=
  (announced item).2.flatMap (fun text =>
    (cut (announced item).1 text).map (deltaValue (announced item).1)) ++ [doneValue item]

def streamOf (cut : String → String → List String) (response : Value) (output : List Value) :
    List Value :=
  output.flatMap (itemStream cut) ++ [completedValue response]

section Otherwise

variable {library : StreamLibrary} {provider model : String}
  {cut : String → String → List String} {response : Value} {output : List Value}

theorem isDelta_deltaValue (kind delta : String) : IsDelta kind delta (deltaValue kind delta) :=
  ⟨rfl, rfl⟩

theorem isDone_doneValue (item : Value) : IsDone item (doneValue item) := ⟨rfl, rfl⟩

theorem deltas_flatMap (hcut : ∀ kind text, String.join (cut kind text) = text) (kind : String)
    (texts : List String) :
    Deltas kind texts (texts.flatMap fun text => (cut kind text).map (deltaValue kind)) := by
  induction texts with
  | nil => exact .nil
  | cons text texts ih =>
      apply Deltas.text (hcut kind text) _ ih
      rw [List.forall₂_map_right_iff, List.forall₂_same]
      exact fun delta _ => isDelta_deltaValue kind delta

theorem announces_flatMap (hcut : ∀ kind text, String.join (cut kind text) = text)
    (output : List Value) : Announces output (output.flatMap (itemStream cut)) := by
  induction output with
  | nil => exact .nil
  | cons item output ih =>
      rw [List.flatMap_cons, itemStream, List.append_assoc, List.singleton_append]
      exact .item (deltas_flatMap hcut _ _) (isDone_doneValue item) ih

/-- The kinds of deltas that there are. -/
theorem announced_kinds (item : Value) :
    (announced item).1 = textDelta ∨ (announced item).1 = summaryDelta ∨ (announced item).2 = [] := by
  rw [announced]
  split
  · exact Or.inl rfl
  · exact Or.inr (Or.inl rfl)
  · exact Or.inr (Or.inr rfl)

theorem speaks_itemStream (item : Value) : ∀ event ∈ itemStream cut item, speaks event = true := by
  rw [itemStream, List.forall_mem_append, List.forall_mem_singleton]
  refine ⟨?_, rfl⟩
  intro event hevent
  obtain ⟨text, htext, hdelta⟩ := List.mem_flatMap.mp hevent
  obtain ⟨delta, -, rfl⟩ := List.mem_map.mp hdelta
  rcases announced_kinds item with hkind | hkind | hnone
  · rw [hkind]
    rfl
  · rw [hkind]
    rfl
  · rw [hnone] at htext
    exact absurd htext List.not_mem_nil

theorem streams_streamOf (hcut : ∀ kind text, String.join (cut kind text) = text)
    (houtput : response.items "output" = some output) :
    Streams response (streamOf cut response output) := by
  refine ⟨output, houtput, output.flatMap (itemStream cut), completedValue response, ?_,
    announces_flatMap hcut output, rfl, rfl⟩
  apply List.filter_eq_self.mpr
  rw [streamOf, List.forall_mem_append, List.forall_mem_singleton]
  refine ⟨?_, rfl⟩
  intro event hevent
  obtain ⟨item, -, hitem⟩ := List.mem_flatMap.mp hevent
  exact speaks_itemStream item event hitem

theorem flatMap_deltaValue {kind : String} (hkind : kind = textDelta ∨ kind = summaryDelta)
    (deltas : List String) :
    (deltas.map (deltaValue kind)).flatMap (eventItems library provider model) =
      deltas.map (deltaItem kind) := by
  induction deltas with
  | nil => rfl
  | cons delta deltas ih =>
      rw [List.map_cons, List.flatMap_cons, ih, List.map_cons]
      rcases hkind with rfl | rfl
      · rw [(isDelta_deltaValue textDelta delta).eventItems_text]
        rfl
      · rw [(isDelta_deltaValue summaryDelta delta).eventItems_summary]
        rfl

/-- What is sent of an item: its deltas, and what is sent at its end. -/
theorem flatMap_itemStream (item : Value) :
    (itemStream cut item).flatMap (eventItems library provider model) =
      ((announced item).2.flatMap (cut (announced item).1)).map (deltaItem (announced item).1) ++
        closing library provider model item := by
  rw [itemStream, List.flatMap_append, List.flatMap_singleton, (isDone_doneValue item).eventItems_eq]
  congr 1
  have hkinds := announced_kinds item
  generalize announced item = deltas at hkinds ⊢
  obtain ⟨kind, texts⟩ := deltas
  rw [← List.map_flatMap]
  rcases hkinds with hkind | hkind | hnone
  · exact flatMap_deltaValue (Or.inl hkind) _
  · exact flatMap_deltaValue (Or.inr hkind) _
  · simp only at hnone
    rw [hnone]
    rfl

/-- A summary is sent in two deltas, the second empty. -/
def summaryTwice (kind text : String) : List String :=
  if kind = summaryDelta then [text, ""] else [text]

theorem join_summaryTwice (kind text : String) : String.join (summaryTwice kind text) = text := by
  rw [summaryTwice]
  split_ifs
  · simp
  · simp

/-- An empty text is sent without a delta. -/
def emptySilently (_ text : String) : List String := if text = "" then [] else [text]

theorem join_emptySilently (kind text : String) : String.join (emptySilently kind text) = text := by
  rw [emptySilently]
  split_ifs with hempty
  · rw [hempty, String.join_nil]
  · simp

/-- The reasoning in a list of pieces. -/
def reasoningCount (pieces : List (Bool × AssistantResponseBlock)) : Nat :=
  pieces.countP fun piece => piece.2.isReasoning

theorem reasoningCount_append (left right : List (Bool × AssistantResponseBlock)) :
    reasoningCount (left ++ right) = reasoningCount left + reasoningCount right :=
  List.countP_append

theorem countP_appendText (blocks : List AssistantResponseBlock) (delta : String) :
    (Reading.appendText blocks delta).countP (·.isReasoning) = blocks.countP (·.isReasoning) := by
  cases blocks using List.reverseRecOn with
  | nil => rfl
  | append_singleton blocks last =>
      cases last with
      | text text =>
          rw [appendText_snoc_text, List.countP_append, List.countP_append]
          rfl
      | _ =>
          rw [appendText_of_other (by simp [AssistantResponseBlock.isText]), List.countP_append]
          rfl

/-- As much reasoning is read as was sent. -/
theorem countP_readBlocks (events : List ModelStreamEvent) :
    (readBlocks events).countP (·.isReasoning) = reasoningCount (pieces events) := by
  induction events using List.reverseRecOn with
  | nil => rfl
  | append_singleton events event ih =>
      rw [readBlocks, List.foldl_append, ← readBlocks, pieces_append, reasoningCount_append, ← ih,
        List.foldl_cons, List.foldl_nil]
      cases event with
      | textDelta delta => exact countP_appendText _ delta
      | reasoning text signature => exact List.countP_append
      | toolCall id name arguments thoughtSignature => exact List.countP_append
      | providerState provider model data => exact List.countP_append
      | _ => rfl

theorem reasoningCount_closing (item : Value) :
    reasoningCount (pieces (closing library provider model item)) = 0 := by
  rw [closing]
  split
  · cases hpart : callPart library item with
    | none => rfl
    | some part =>
        obtain ⟨id, name, arguments, -, rfl⟩ := callPart_eq_some_iff.mp hpart
        rfl
  · split_ifs <;> rfl
  · rfl

theorem reasoningCount_deltas (kind : String) (deltas : List String) :
    reasoningCount (pieces (deltas.map (deltaItem kind))) =
      if kind = textDelta then 0 else deltas.length := by
  induction deltas with
  | nil => simp [pieces, reasoningCount]
  | cons delta deltas ih =>
      rw [List.map_cons, ← List.singleton_append, pieces_append, reasoningCount_append, ih,
        deltaItem]
      split_ifs
      · rfl
      · exact Nat.add_comm 1 _

/-- The reasoning of an item that came whole. -/
theorem reasoningCount_itemParts (item : Value) :
    reasoningCount (pieces ((itemParts library provider model item).map ModelPart.event)) =
      if (announced item).1 = textDelta then 0 else (announced item).2.length := by
  rw [map_event_itemParts, pieces_append, reasoningCount_append, reasoningCount_closing,
    reasoningCount_deltas, Nat.add_zero]

theorem length_flatMap_summaryTwice (texts : List String) :
    (texts.flatMap (summaryTwice summaryDelta)).length = 2 * texts.length := by
  induction texts with
  | nil => rfl
  | cons text texts ih =>
      rw [List.flatMap_cons, List.length_append, ih, List.length_cons, summaryTwice, if_pos rfl]
      simp only [List.length_cons, List.length_nil]
      omega

theorem reasoningCount_itemStream (item : Value) :
    reasoningCount (pieces ((itemStream summaryTwice item).flatMap
        (eventItems library provider model))) =
      2 * reasoningCount (pieces ((itemParts library provider model item).map
        ModelPart.event)) := by
  rw [flatMap_itemStream, pieces_append, reasoningCount_append, reasoningCount_closing,
    reasoningCount_itemParts, reasoningCount_deltas, Nat.add_zero]
  rcases announced_kinds item with hkind | hkind | hnone
  · rw [if_pos hkind, if_pos hkind]
  · have hsummary : summaryDelta ≠ textDelta := by decide
    rw [hkind, if_neg hsummary, if_neg hsummary, length_flatMap_summaryTwice]
  · rw [hnone, List.flatMap_nil, List.length_nil, ite_self]

/-- Twice the reasoning is sent of a stream with its summaries in two deltas. -/
theorem reasoningCount_summaryTwice (output : List Value) :
    reasoningCount (pieces ((output.flatMap (itemStream summaryTwice)).flatMap
        (eventItems library provider model))) =
      2 * reasoningCount (pieces ((output.flatMap
        (itemParts library provider model)).map ModelPart.event)) := by
  induction output with
  | nil => rfl
  | cons item output ih =>
      rw [List.flatMap_cons, List.flatMap_append, pieces_append, reasoningCount_append, ih,
        reasoningCount_itemStream, List.flatMap_cons, List.map_append, pieces_append,
        reasoningCount_append, Nat.mul_add]

variable (library provider model) in
/-- Without reasoning there is no summary. -/
theorem unsummarized_of_reasoningCount
    (hnone : reasoningCount (pieces ((output.flatMap
      (itemParts library provider model)).map ModelPart.event)) = 0) :
    ∀ item ∈ output, item.text "type" = some "reasoning" → texts item "summary" = [] := by
  induction output with
  | nil => simp
  | cons item output ih =>
      rw [List.flatMap_cons, List.map_append, pieces_append, reasoningCount_append,
        Nat.add_eq_zero_iff] at hnone
      obtain ⟨hitem, hrest⟩ := hnone
      apply List.forall_mem_cons.mpr ⟨_, ih hrest⟩
      intro hkind
      have hannounced : announced item = (summaryDelta, texts item "summary") := by
        rw [announced, hkind]
        rfl
      have hsummary : summaryDelta ≠ textDelta := by decide
      rw [reasoningCount_itemParts, hannounced, if_neg hsummary] at hitem
      exact List.eq_nil_of_length_eq_zero hitem

/-- An empty text is read where all texts between other blocks are empty. -/
theorem empty_mem_readBlocks {events : List ModelStreamEvent} :
    .text "" ∈ readBlocks events ↔ ∃ run ∈ Runs.merge (pieces events),
      run.1 = true ∧ ∀ block ∈ run.2, block.textOf = "" := by
  rw [readBlocks_eq, List.mem_flatMap]
  apply exists_congr
  rintro ⟨key, blocks⟩
  apply and_congr_right
  intro hrun
  cases key with
  | false =>
      constructor
      · intro hmem
        exact Bool.noConfusion (isText_of_mem_run hrun _ hmem)
      · exact fun h => Bool.noConfusion h.1
  | true =>
      rw [runBlocks, if_pos rfl, List.mem_singleton, AssistantResponseBlock.text.injEq, eq_comm,
        join_eq_empty_iff, List.forall_mem_map]
      exact (and_iff_right rfl).symm

theorem ne_empty_of_mem_closing {item : Value} {block : AssistantResponseBlock} :
    (true, block) ∉ pieces (closing library provider model item) := by
  obtain ⟨blocks, hblocks⟩ := exists_closing_pieces library provider model item
  rw [pieces, hblocks]
  simp

/-- No delta of a text is empty. -/
theorem ne_empty_of_mem_itemStream {item : Value} {block : AssistantResponseBlock}
    (hblock : (true, block) ∈ pieces ((itemStream emptySilently item).flatMap
      (eventItems library provider model))) : block.textOf ≠ "" := by
  rw [flatMap_itemStream, pieces_append, List.mem_append] at hblock
  rcases hblock with hdelta | hclosing
  · obtain ⟨event, hevent, hpiece⟩ := List.mem_filterMap.mp hdelta
    obtain ⟨delta, hmem, rfl⟩ := List.mem_map.mp hevent
    obtain ⟨text, -, hcut⟩ := List.mem_flatMap.mp hmem
    rw [emptySilently] at hcut
    split_ifs at hcut with hempty
    · cases hcut
    · obtain rfl := List.mem_singleton.mp hcut
      rw [deltaItem] at hpiece
      split_ifs at hpiece
      · cases hpiece
        exact hempty
      · cases hpiece
  · exact absurd hclosing ne_empty_of_mem_closing

variable (library provider model) in
theorem empty_not_mem_emptySilently (output : List Value) :
    .text "" ∉ readBlocks ((output.flatMap (itemStream emptySilently)).flatMap
      (eventItems library provider model)) := by
  intro hempty
  obtain ⟨⟨key, blocks⟩, hrun, rfl, hblocks⟩ := empty_mem_readBlocks.mp hempty
  obtain ⟨block, hblock⟩ := List.exists_mem_of_ne_nil blocks (Runs.ne_nil_of_mem_merge _ _ hrun)
  have hpiece := Runs.mem_expand.mpr ⟨blocks, hrun, hblock⟩
  rw [Runs.expand_merge, List.flatMap_assoc, pieces, List.filterMap_flatMap] at hpiece
  obtain ⟨item, -, hitem⟩ := List.mem_flatMap.mp hpiece
  exact ne_empty_of_mem_itemStream hitem (hblocks block hblock)

/-- The blocks of a stream whose end says nothing. -/
theorem readBlocks_streamOf :
    readBlocks ((streamOf cut response output).flatMap (eventItems library provider model)) =
      readBlocks ((output.flatMap (itemStream cut)).flatMap
        (eventItems library provider model)) := by
  rw [readBlocks_eq, readBlocks_eq, ← pieces, ← pieces, streamOf, List.flatMap_append,
    pieces_append, List.flatMap_singleton, pieces_completed rfl, List.append_nil]

/-- The blocks of a response that came whole. -/
theorem readBlocks_events (result : ModelResponse) :
    readBlocks result.events = readBlocks (result.parts.map ModelPart.event) := by
  rw [readBlocks_eq, readBlocks_eq, ← pieces, ← pieces, pieces_events]

theorem ParsersAgree.readBlocks_eq (hagree : ParsersAgree library provider model response)
    (houtput : response.items "output" = some output)
    (hcut : ∀ kind text, String.join (cut kind text) = text) :
    readBlocks ((output.flatMap (itemStream cut)).flatMap (eventItems library provider model)) =
      readBlocks ((output.flatMap (itemParts library provider model)).map ModelPart.event) := by
  have hresult := hagree _ (by rw [parse, houtput]) _ (streams_streamOf hcut houtput)
  rwa [readBlocks_streamOf, readBlocks_events] at hresult

theorem ParsersAgree.plain (hagree : ParsersAgree library provider model response)
    (houtput : response.items "output" = some output) : Plain library output := by
  constructor
  · apply unsummarized_of_reasoningCount library provider model
    have hcount := congrArg (List.countP (·.isReasoning))
      (hagree.readBlocks_eq houtput join_summaryTwice)
    rw [countP_readBlocks, countP_readBlocks, reasoningCount_summaryTwice] at hcount
    omega
  · intro run hrun htext
    by_contra hnone
    have hempty := empty_not_mem_emptySilently library provider model output
    rw [hagree.readBlocks_eq houtput join_emptySilently] at hempty
    apply hempty
    rw [shape_flatMap provider model, Runs.merge_map_snd] at hrun
    obtain ⟨pieceRun, hmem, rfl⟩ := List.mem_map.mp hrun
    apply empty_mem_readBlocks.mpr ⟨pieceRun, hmem, htext, _⟩
    intro block hblock
    by_contra hsome
    exact hnone ⟨block.textOf, List.mem_map_of_mem hblock, hsome⟩

/-- The stream and the whole agree exactly if the output is plain. -/
theorem parsersAgree_iff (library : StreamLibrary) (provider model : String) (response : Value) :
    ParsersAgree library provider model response ↔
      ∀ output, response.items "output" = some output → Plain library output := by
  constructor
  · intro hagree output houtput
    exact hagree.plain houtput
  · intro hplain
    cases houtput : response.items "output" with
    | some output => exact (hplain output houtput).parsersAgree houtput
    | none =>
        intro result hresult
        rw [parse, houtput] at hresult
        cases hresult

end Otherwise

end Mews.Openai

namespace Mews

open Protocol HostProtocol

namespace CutArguments

def library : StreamLibrary where
  fromStr := fun text =>
    if text = "\x7b" then .error "EOF while parsing an object at line 1 column 1"
    else .ok (.string text)
  utf8Error := fun _ => ""

def call : Value :=
  .object [("arguments", .string "\x7b"), ("call_id", .string "call-1"),
    ("name", .string "read"), ("type", .string "function_call")]

def response : Value :=
  .object [("output", .array [call]), ("status", .string "completed")]

end CutArguments

end Mews
