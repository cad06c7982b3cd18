import Mathlib.Data.List.Induction
import Mews.Core.Runs
import Mews.Router.Providers

/-!
# The blocks of a response

Of the events of a response its blocks are read.  Texts that follow each other become one
block; everything else is a block of its own.
-/

namespace Mews

open Protocol HostProtocol

/-- The blocks after an event. -/
def blocksAfter (blocks : List AssistantResponseBlock) :
    ModelStreamEvent → List AssistantResponseBlock
  | .textDelta delta => Reading.appendText blocks delta
  | .reasoning text signature => blocks ++ [.reasoning text signature]
  | .toolCall id name arguments thoughtSignature =>
      blocks ++ [.toolCall id name arguments thoughtSignature]
  | .providerState provider model data => blocks ++ [.opaqueState provider model data]
  | .start | .responseMetadata .. | .responseCompleted .. | .done => blocks

/-- The blocks of a response that begins with no block. -/
def readBlocks (events : List ModelStreamEvent) : List AssistantResponseBlock :=
  events.foldl blocksAfter []

theorem blocks_take (reading : Reading) (event : ModelStreamEvent) :
    (reading.take event).response.blocks = blocksAfter reading.response.blocks event := by
  cases event <;> rfl

/-- What is read of a stream. -/
theorem blocks_foldl_take (events : List ModelStreamEvent) (reading : Reading)
    (hempty : reading.response.blocks = []) :
    (events.foldl Reading.take reading).response.blocks = readBlocks events := by
  induction events using List.reverseRecOn with
  | nil => exact hempty
  | append_singleton events event ih =>
      rw [List.foldl_append, readBlocks, List.foldl_append, ← readBlocks, ← ih]
      exact blocks_take _ _

/-! ## Blocks as runs -/

namespace Protocol.AssistantResponseBlock

def isText : AssistantResponseBlock → Bool
  | .text _ => true
  | _ => false

def isReasoning : AssistantResponseBlock → Bool
  | .reasoning .. => true
  | _ => false

/-- The text of a text block. -/
def textOf : AssistantResponseBlock → String
  | .text content => content
  | _ => ""

end Protocol.AssistantResponseBlock

/-- The block of an event on its own, and whether it is a text. -/
def ModelStreamEvent.piece : ModelStreamEvent → Option (Bool × AssistantResponseBlock)
  | .textDelta delta => some (true, .text delta)
  | .reasoning text signature => some (false, .reasoning text signature)
  | .toolCall id name arguments thoughtSignature =>
      some (false, .toolCall id name arguments thoughtSignature)
  | .providerState provider model data => some (false, .opaqueState provider model data)
  | .start | .responseMetadata .. | .responseCompleted .. | .done => none

/-- Texts become one block. -/
def runBlocks (run : Bool × List AssistantResponseBlock) : List AssistantResponseBlock :=
  if run.1 then [.text (String.join (run.2.map (·.textOf)))] else run.2

theorem isText_of_piece {event : ModelStreamEvent} {key : Bool} {block : AssistantResponseBlock}
    (hpiece : event.piece = some (key, block)) : block.isText = key := by
  cases event <;> cases hpiece <;> rfl

theorem blocksAfter_of_piece_none {event : ModelStreamEvent} (hpiece : event.piece = none)
    (blocks : List AssistantResponseBlock) : blocksAfter blocks event = blocks := by
  cases event <;> first | rfl | cases hpiece

theorem blocksAfter_of_piece_other {event : ModelStreamEvent} {block : AssistantResponseBlock}
    (hpiece : event.piece = some (false, block)) (blocks : List AssistantResponseBlock) :
    blocksAfter blocks event = blocks ++ [block] := by
  cases event <;> cases hpiece <;> rfl

theorem blocksAfter_of_piece_text {event : ModelStreamEvent} {block : AssistantResponseBlock}
    (hpiece : event.piece = some (true, block)) (blocks : List AssistantResponseBlock) :
    blocksAfter blocks event = Reading.appendText blocks block.textOf ∧
      block = .text block.textOf := by
  cases event <;> cases hpiece
  exact ⟨rfl, rfl⟩

theorem appendText_snoc_text (blocks : List AssistantResponseBlock) (text delta : String) :
    Reading.appendText (blocks ++ [.text text]) delta = blocks ++ [.text (text ++ delta)] := by
  rw [Reading.appendText, List.getLast?_concat]
  simp

theorem appendText_of_other {blocks : List AssistantResponseBlock}
    (hlast : ∀ block ∈ blocks.getLast?, block.isText = false) (delta : String) :
    Reading.appendText blocks delta = blocks ++ [.text delta] := by
  rw [Reading.appendText]
  cases hblock : blocks.getLast? with
  | none => rfl
  | some block =>
      have hother := hlast block hblock
      cases block with
      | text text => cases hother
      | _ => rfl

/-- The pieces of a run are texts, or none of them is. -/
theorem isText_of_mem_run {events : List ModelStreamEvent} {key : Bool}
    {blocks : List AssistantResponseBlock}
    (hrun : (key, blocks) ∈ Runs.merge (events.filterMap (·.piece))) :
    ∀ block ∈ blocks, block.isText = key := by
  intro block hblock
  have hpiece : (key, block) ∈ events.filterMap (·.piece) := by
    rw [← Runs.expand_merge (events.filterMap (·.piece)), Runs.mem_expand]
    exact ⟨blocks, hrun, hblock⟩
  obtain ⟨event, -, hevent⟩ := List.mem_filterMap.mp hpiece
  exact isText_of_piece hevent

theorem readBlocks_eq (events : List ModelStreamEvent) :
    readBlocks events = (Runs.merge (events.filterMap (·.piece))).flatMap runBlocks := by
  induction events using List.reverseRecOn with
  | nil => rfl
  | append_singleton events event ih =>
      rw [readBlocks, List.foldl_append, ← readBlocks, List.filterMap_append]
      change blocksAfter (readBlocks events) event = _
      cases hpiece : event.piece with
      | none =>
          rw [blocksAfter_of_piece_none hpiece, List.filterMap_cons_none hpiece, List.filterMap_nil,
            List.append_nil, ih]
      | some piece =>
          obtain ⟨key, block⟩ := piece
          have hnonempty := Runs.ne_nil_of_mem_merge (events.filterMap (·.piece))
          have hkind := @isText_of_mem_run events
          rw [List.filterMap_cons_some hpiece, List.filterMap_nil, Runs.merge_snoc]
          generalize Runs.merge (events.filterMap (·.piece)) = runs at ih hnonempty hkind ⊢
          cases key with
          | false =>
              rw [blocksAfter_of_piece_other hpiece, ih]
              cases runs using List.reverseRecOn with
              | nil => rfl
              | append_singleton runs last =>
                  obtain ⟨other, blocks⟩ := last
                  cases other with
                  | false =>
                      rw [Runs.push_snoc_same, List.flatMap_append, List.flatMap_append]
                      simp [runBlocks]
                  | true =>
                      rw [Runs.push_snoc_of_ne (by decide), List.flatMap_append]
                      simp [runBlocks]
          | true =>
              obtain ⟨hafter, hblock⟩ := blocksAfter_of_piece_text hpiece (readBlocks events)
              rw [hafter, ih]
              cases runs using List.reverseRecOn with
              | nil =>
                  rw [Runs.push_nil, hblock]
                  simp [runBlocks, AssistantResponseBlock.textOf, Reading.appendText]
              | append_singleton runs last =>
                  obtain ⟨other, blocks⟩ := last
                  cases other with
                  | true =>
                      rw [Runs.push_snoc_same, List.flatMap_append, List.flatMap_append,
                        List.flatMap_singleton, List.flatMap_singleton, runBlocks, if_pos rfl,
                        appendText_snoc_text, runBlocks, if_pos rfl, List.map_append,
                        String.join_append]
                      simp
                  | false =>
                      have hlast : ∀ last ∈ (runs.flatMap runBlocks ++ blocks).getLast?,
                          last.isText = false := by
                        have hsome : blocks ≠ [] := hnonempty (false, blocks) (by simp)
                        intro last hlast
                        rw [List.getLast?_append_of_ne_nil _ hsome] at hlast
                        exact hkind (by simp) last (List.mem_of_getLast? hlast)
                      rw [Runs.push_snoc_of_ne (by decide), List.flatMap_append,
                        List.flatMap_append, List.flatMap_singleton, List.flatMap_singleton,
                        runBlocks, if_neg Bool.false_ne_true, appendText_of_other hlast, runBlocks,
                        if_pos rfl]
                      simp [runBlocks]

end Mews
