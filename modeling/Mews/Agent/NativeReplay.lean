import Mews.Agent.ProviderCalls

/-!
# Native replay

Without a continuation cursor a provider is given the whole history of its Session.  State
that only a provider can read is given back to the provider and model that it came from.
-/

namespace Mews

open Protocol

/-! ## The replay -/

/-- Without a slash the target has no provider. -/
def replayTarget (target : String) : String × String := (splitModel target).getD ("", target)

/-- The data that thinking is given back as. -/
def thinkingState (targetProvider text : String) (signature : Option String) : Option Value :=
  match targetProvider with
  | "anthropic" =>
      some (.object [("signature", optionalText signature), ("thinking", .string text),
        ("type", .string "thinking")])
  | "google" =>
      some (.object [("text", .string text), ("thought", .bool true),
        ("thoughtSignature", optionalText signature)])
  | _ => none

def replayedBlock (targetProvider targetModel : String) (response : AssistantResponse) :
    AssistantResponseBlock → Option MessageContent
  | .text text => some (.text text)
  | .toolCall callId tool arguments thoughtSignature =>
      some (.toolCall callId tool arguments
        (if response.provider = targetProvider ∧ response.model = targetModel then
          thoughtSignature
        else none))
  -- The provider and model of the block decide, not those of the response.
  | .opaqueState provider model data =>
      if provider = targetProvider ∧ model = targetModel then
        some (.providerState provider model data)
      else none
  | .reasoning text signature =>
      if response.provider = targetProvider ∧ response.model = targetModel then
        (thinkingState targetProvider text signature).map
          (.providerState targetProvider targetModel)
      else none

/-- The messages that an entry is replayed as. -/
def replayedMessages (targetProvider targetModel : String) (entry : SessionEntry) :
    List ModelMessage :=
  match entry.payload with
  | .userMessage content _ _ => [{ role := .user, content }]
  | .assistantResponse _ response =>
      response.blocks.filterMap fun block =>
        (replayedBlock targetProvider targetModel response block).map
          fun content => { role := .assistant, content }
  | .toolResult _ result =>
      [{ role := .tool
         content := .toolResult result.callId result.tool result.result result.isError
           result.uncertain }]
  | .contextCompaction summary _ _ => [{ role := .user, content := .text (summaryText summary) }]
  | .turnStarted .. | .toolStarted .. | .reasoning .. | .turnCompleted .. | .turnFailed ..
  | .turnCancelled .. | .harnessObservation .. => []

def nativeReplay (entries : List SessionEntry) (target : String) : List ModelMessage :=
  let (targetProvider, targetModel) := replayTarget target
  entries.flatMap (replayedMessages targetProvider targetModel)

/-! ## What a provider keeps to itself -/

namespace ModelMessage

/-- The message without provider state, thinking and signatures. -/
def portable (message : ModelMessage) : Option PortableHistoryItem :=
  match message.content with
  | .providerState .. => none
  | .toolCall callId tool arguments _ =>
      some { role := message.role, content := .toolCall callId tool arguments none }
  | content => some { role := message.role, content }

def carriesState (message : ModelMessage) : Bool :=
  match message.content with
  | .providerState .. => true
  | .toolCall _ _ _ thoughtSignature => thoughtSignature.isSome
  | _ => false

end ModelMessage

/-- The entry is a response of this provider and model. -/
def Protocol.SessionEntry.recordedFrom (provider model : String) (entry : SessionEntry) : Bool :=
  match entry.payload with
  | .assistantResponse _ response => response.provider = provider ∧ response.model = model
  | _ => false

/-- But for what the target left in its own responses, the replay is the portable history. -/
structure ReplayIsolated (entries : List SessionEntry) (target : String) : Prop where
  portable : (nativeReplay entries target).filterMap ModelMessage.portable =
    portableHistory entries
  attributed : let (targetProvider, targetModel) := replayTarget target
    ∀ entry ∈ entries, ∀ message ∈ replayedMessages targetProvider targetModel entry,
      message.carriesState = true → entry.recordedFrom targetProvider targetModel = true

def Protocol.MessageContent.isText : MessageContent → Bool
  | .text _ => true
  | _ => false

def Protocol.AssistantResponseBlock.isStateOf (provider model : String) :
    AssistantResponseBlock → Bool
  | .opaqueState stateProvider stateModel _ => stateProvider = provider ∧ stateModel = model
  | _ => false

/-- What a user says is a text, and state of the target stands in a response of the target. -/
def Protocol.SessionEntry.attributable (targetProvider targetModel : String)
    (entry : SessionEntry) : Bool :=
  match entry.payload with
  | .userMessage content _ _ => content.isText
  | .assistantResponse _ response =>
      entry.recordedFrom targetProvider targetModel ||
        response.blocks.all fun block => !block.isStateOf targetProvider targetModel
  | _ => true

/-! ## One entry -/

section Entry

variable {targetProvider targetModel : String} {entry : SessionEntry}

theorem portable_replayedBlock (response : AssistantResponse) (block : AssistantResponseBlock) :
    ((replayedBlock targetProvider targetModel response block).map
      fun content => ({ role := .assistant, content } : ModelMessage)).bind
        ModelMessage.portable = portableBlock block := by
  cases block with
  | text text => rfl
  | toolCall callId tool arguments thoughtSignature => rfl
  | reasoning text signature =>
      rw [replayedBlock, portableBlock]
      split_ifs
      · cases thinkingState targetProvider text signature <;> rfl
      · rfl
  | opaqueState provider model data =>
      rw [replayedBlock, portableBlock]
      split_ifs <;> rfl

/-- A replay has at least the items of the portable history. -/
theorem portableItems_sublist (targetProvider targetModel : String) (entry : SessionEntry) :
    (portableItems entry).Sublist
      ((replayedMessages targetProvider targetModel entry).filterMap ModelMessage.portable) := by
  rw [portableItems.eq_def, replayedMessages]
  cases entry.payload with
  | userMessage content metadata source =>
      cases content with
      | text text => exact List.Sublist.refl _
      | toolCall | toolResult | providerState => exact List.nil_sublist _
  | assistantResponse turnId response =>
      have hblocks : portableBlock = fun block =>
          ((replayedBlock targetProvider targetModel response block).map
            fun content => ({ role := .assistant, content } : ModelMessage)).bind
              ModelMessage.portable := by
        funext block
        exact (portable_replayedBlock response block).symm
      simp only
      rw [List.filterMap_filterMap, ← hblocks]
  | _ => exact List.Sublist.refl _

theorem attributable_of_isolated
    (hportable : (replayedMessages targetProvider targetModel entry).filterMap
      ModelMessage.portable = portableItems entry)
    (hattributed : ∀ message ∈ replayedMessages targetProvider targetModel entry,
      message.carriesState = true → entry.recordedFrom targetProvider targetModel = true) :
    entry.attributable targetProvider targetModel = true := by
  rw [portableItems.eq_def, replayedMessages] at hportable
  rw [replayedMessages] at hattributed
  rw [SessionEntry.attributable]
  cases hpayload : entry.payload with
  | userMessage content metadata source =>
      simp only [hpayload] at hportable hattributed
      cases content with
      | text text => rfl
      | toolCall callId tool arguments thoughtSignature =>
          simp [ModelMessage.portable] at hportable
      | toolResult callId tool result isError uncertain =>
          simp [ModelMessage.portable] at hportable
      | providerState provider model data =>
          have hrecorded := hattributed _ (List.mem_singleton_self _) rfl
          rw [SessionEntry.recordedFrom, hpayload] at hrecorded
          exact absurd hrecorded Bool.false_ne_true
  | assistantResponse turnId response =>
      simp only [hpayload] at hattributed
      rw [Bool.or_eq_true]
      by_cases hrecorded : entry.recordedFrom targetProvider targetModel = true
      · exact .inl hrecorded
      right
      rw [List.all_eq_true]
      intro block hblock
      rw [Bool.not_eq_true']
      by_contra hstate
      apply hrecorded
      cases block with
      | opaqueState provider model data =>
          have hsame : provider = targetProvider ∧ model = targetModel := by
            simpa [AssistantResponseBlock.isStateOf] using hstate
          apply hattributed { role := .assistant, content := .providerState provider model data }
          · apply List.mem_filterMap.mpr
            exact ⟨_, hblock, by rw [replayedBlock, if_pos hsame, Option.map_some]⟩
          · rfl
      | _ => simp [AssistantResponseBlock.isStateOf] at hstate
  | _ => rfl

theorem isolated_of_attributable
    (hattributable : entry.attributable targetProvider targetModel = true) :
    (replayedMessages targetProvider targetModel entry).filterMap ModelMessage.portable =
        portableItems entry ∧
      ∀ message ∈ replayedMessages targetProvider targetModel entry,
        message.carriesState = true → entry.recordedFrom targetProvider targetModel = true := by
  rw [portableItems.eq_def, replayedMessages]
  rw [SessionEntry.attributable] at hattributable
  cases hpayload : entry.payload with
  | userMessage content metadata source =>
      simp only [hpayload] at hattributable
      cases content with
      | text text =>
          refine ⟨rfl, fun message hmessage hcarries => ?_⟩
          rw [List.mem_singleton.mp hmessage] at hcarries
          exact absurd hcarries Bool.false_ne_true
      | toolCall | toolResult | providerState => exact absurd hattributable Bool.false_ne_true
  | assistantResponse turnId response =>
      simp only [hpayload, Bool.or_eq_true, List.all_eq_true, Bool.not_eq_true'] at hattributable
      constructor
      · simp only
        rw [List.filterMap_filterMap]
        congr 1
        funext block
        exact portable_replayedBlock response block
      intro message hmessage hcarries
      obtain ⟨block, hblock, hmapped⟩ := List.mem_filterMap.mp hmessage
      obtain ⟨content, hcontent, rfl⟩ := Option.map_eq_some_iff.mp hmapped
      apply hattributable.elim id
      intro hstateless
      by_contra hrecorded
      have hother : ¬(response.provider = targetProvider ∧ response.model = targetModel) := by
        simpa [SessionEntry.recordedFrom, hpayload] using hrecorded
      cases block with
      | text text =>
          rw [replayedBlock, Option.some_inj] at hcontent
          rw [← hcontent] at hcarries
          exact absurd hcarries Bool.false_ne_true
      | toolCall callId tool arguments thoughtSignature =>
          rw [replayedBlock, if_neg hother, Option.some_inj] at hcontent
          rw [← hcontent] at hcarries
          exact absurd hcarries Bool.false_ne_true
      | reasoning text signature =>
          rw [replayedBlock, if_neg hother] at hcontent
          exact absurd hcontent (Option.some_ne_none _).symm
      | opaqueState provider model data =>
          have hforeign : ¬(provider = targetProvider ∧ model = targetModel) := by
            simpa [AssistantResponseBlock.isStateOf] using hstateless _ hblock
          rw [replayedBlock, if_neg hforeign] at hcontent
          exact absurd hcontent (Option.some_ne_none _).symm
  | toolResult turnId result =>
      refine ⟨rfl, fun message hmessage hcarries => ?_⟩
      rw [List.mem_singleton.mp hmessage] at hcarries
      exact absurd hcarries Bool.false_ne_true
  | contextCompaction summary firstKeptEntryId tokensBefore =>
      refine ⟨rfl, fun message hmessage hcarries => ?_⟩
      rw [List.mem_singleton.mp hmessage] at hcarries
      exact absurd hcarries Bool.false_ne_true
  | _ => exact ⟨rfl, fun message hmessage => absurd hmessage List.not_mem_nil⟩

end Entry

/-! ## The whole history -/

/-- Where no part is longer than its whole and the wholes are together equal to the parts, each
is. -/
theorem flatMap_eq_iff_of_length_le {A B : Type} {parts wholes : A → List B} {items : List A}
    (hlength : ∀ item, (parts item).length ≤ (wholes item).length) :
    items.flatMap wholes = items.flatMap parts ↔ ∀ item ∈ items, wholes item = parts item := by
  constructor
  · intro hequal
    induction items with
    | nil => exact fun item hitem => absurd hitem List.not_mem_nil
    | cons first items ih =>
        rw [List.flatMap_cons, List.flatMap_cons] at hequal
        have hlater : (items.flatMap parts).length ≤ (items.flatMap wholes).length := by
          rw [List.length_flatMap, List.length_flatMap]
          exact List.sum_le_sum fun item _ => hlength item
        have hlengths := congrArg List.length hequal
        rw [List.length_append, List.length_append] at hlengths
        have hfirst := hlength first
        obtain ⟨hhead, htail⟩ := List.append_inj hequal (by omega)
        exact List.forall_mem_cons.mpr ⟨hhead, ih htail⟩
  · intro hequal
    exact List.flatMap_congr hequal

/-- Where every part is a sublist and the whole is equal, every part is. -/
theorem flatMap_eq_iff_of_sublist {A B : Type} {parts wholes : A → List B} {items : List A}
    (hsublist : ∀ item, (parts item).Sublist (wholes item)) :
    items.flatMap wholes = items.flatMap parts ↔ ∀ item ∈ items, wholes item = parts item :=
  flatMap_eq_iff_of_length_le fun item => (hsublist item).length_le

/-- The replay is the portable history, but for what the target left in its own responses, if
and only if every entry can be attributed. -/
theorem native_replay_isolated (entries : List SessionEntry) (target : String) :
    ReplayIsolated entries target ↔
      ∀ entry ∈ entries,
        entry.attributable (replayTarget target).1 (replayTarget target).2 = true := by
  have hwhole : (nativeReplay entries target).filterMap ModelMessage.portable =
        portableHistory entries ↔
      ∀ entry ∈ entries, (replayedMessages (replayTarget target).1 (replayTarget target).2
        entry).filterMap ModelMessage.portable = portableItems entry := by
    rw [nativeReplay, portableHistory, List.filterMap_flatMap]
    exact flatMap_eq_iff_of_sublist
      (portableItems_sublist (replayTarget target).1 (replayTarget target).2)
  constructor
  · intro hisolated entry hentry
    exact attributable_of_isolated (hwhole.mp hisolated.portable entry hentry)
      (hisolated.attributed entry hentry)
  · intro hattributable
    constructor
    · exact hwhole.mpr fun entry hentry => (isolated_of_attributable (hattributable entry hentry)).1
    · intro entry hentry
      exact (isolated_of_attributable (hattributable entry hentry)).2

/-! ## A call that a user message carries -/

namespace InjectedCall

/-- A message of the runtime whose content is a call signed by another provider. -/
def injected : SessionEntry where
  id := ⟨"1"⟩
  sessionId := ⟨"2"⟩
  sequence := 1
  parentId := none
  payload := .userMessage (.toolCall "call" "read" .null (some "signature")) .null
    { kind := .harness, id := "default", channelOrigin := none }
  createdAt := 0

/-- It is replayed with its signature, and the portable history has nothing of it. -/
theorem not_isolated : ¬ReplayIsolated [injected] "anthropic/claude" := by
  intro hisolated
  have hportable := hisolated.portable
  revert hportable
  decide

end InjectedCall

end Mews
