import Mathlib.Data.List.Infix
import Mathlib.Data.List.Nodup
import Mews.Acp.Updates
import Mews.Core.Texts

/-!
# What the events of a Turn say

The answer is what the deltas say together, no two events have one key, and an activity is
the fold of the updates of its call.  An output or a location is kept beside the input of
the call, so it is in the activity as long as the input is an object and leaves the two
members alone.
-/

namespace Mews

open Protocol

/-! ## Members of the input -/

section Members

variable {key other : String} {change : Option Value → Value} {value raw : Value}
  {members current current' update : List (String × Value)} {input : Value}

theorem get_cons (row : String × Value) :
    (Value.object (row :: members)).get key =
      if row.1 = key then some row.2 else (Value.object members).get key := by
  simp only [Value.get, List.find?_cons, beq_eq_decide]
  by_cases hkey : row.1 = key
  · simp [hkey]
  · simp [hkey]

theorem get_eq_none_of_notMem (hmem : key ∉ members.map Prod.fst) :
    (Value.object members).get key = none := by
  induction members with
  | nil => rfl
  | cons row members ih =>
      rw [List.map_cons, List.mem_cons, not_or] at hmem
      rw [get_cons, if_neg (Ne.symm hmem.1), ih hmem.2]

theorem get_upsertMember (members : List (String × Value)) :
    (Value.object (upsertMember key change members)).get other =
      if key = other then some (change ((Value.object members).get key))
      else (Value.object members).get other := by
  induction members with
  | nil => rw [upsertMember, get_cons]; rfl
  | cons row members ih =>
      obtain ⟨first, found⟩ := row
      rw [upsertMember]
      by_cases hsame : first = key
      · subst hsame
        rw [if_pos rfl, get_cons, get_cons, get_cons, if_pos rfl]
        split_ifs
        · rfl
        · rfl
      · rw [if_neg hsame]
        by_cases hbefore : key < first ∧ key ∉ members.map Prod.fst
        · have hlater : (Value.object ((first, found) :: members)).get key = none := by
            rw [get_cons, if_neg hsame, get_eq_none_of_notMem hbefore.2]
          rw [if_pos hbefore, get_cons, hlater]
        · rw [if_neg hbefore, get_cons, ih, get_cons, get_cons, if_neg hsame]
          by_cases hother : first = other
          · rw [if_pos hother, if_neg (hother ▸ Ne.symm hsame), if_pos hother]
          · rw [if_neg hother, if_neg hother]

/-- A merge treats every member on its own. -/
theorem get_mergeMembers_congr
    (hsame : (Value.object current).get key = (Value.object current').get key) :
    (Value.object (mergeMembers current update)).get key =
      (Value.object (mergeMembers current' update)).get key := by
  induction update generalizing current current' with
  | nil => exact hsame
  | cons row update ih =>
      rw [mergeMembers, mergeMembers]
      split_ifs with hvacant
      · exact ih hsame
      · apply ih
        rw [get_upsertMember, get_upsertMember, hsame]
        by_cases hkey : row.1 = key
        · rw [if_pos hkey, if_pos hkey, hkey, hsame]
        · rw [if_neg hkey, if_neg hkey]

end Members

/-! ## The input of a call -/

/-- What is kept beside the input, with the member it becomes. -/
def keptFields : List (String × String) :=
  [("rawOutput", "_mews_raw_output"), ("locations", "_mews_locations")]

def isObject : Value → Bool
  | .object _ => true
  | _ => false

def lastField (field : String) (history : List Value) : Option Value :=
  (history.filterMap (·.get field)).getLast?

/-- An input that a merge does not pass over. -/
def givenInput (update : Value) : Option Value :=
  ((update.get "rawInput").map boundedJson).filter fun raw => !raw.isNull

def lastInput (history : List Value) : Option Value := (history.filterMap givenInput).getLast?

def foldedInput (history : List Value) : Value :=
  history.foldl ToolActivityState.recordInput .null

/-- The outputs and locations of the call are in the input. -/
def KeptIn (history : List Value) (input : Value) : Prop :=
  ∀ field ∈ keptFields, ∀ value, lastField field.1 history = some value →
    input.get field.2 = some (boundedJson value)

/-- A new value finds an object, and an earlier one is left alone. -/
def KeepsField (field : String × String) (seen : List Value) (update : Value) : Prop :=
  match update.get field.1 with
  | some _ => ∀ raw, lastInput (seen ++ [update]) = some raw → isObject raw
  | none => ∀ value raw, lastField field.1 seen = some value → update.get "rawInput" = some raw →
      (mergeJson (.object [(field.2, boundedJson value)]) (boundedJson raw)).get field.2 =
        some (boundedJson value)

/-- Every update of the call keeps what has to be kept. -/
def KeepsFields (history : List Value) : Prop :=
  ∀ seen update rest, history = seen ++ update :: rest →
    ∀ field ∈ keptFields, KeepsField field seen update

theorem getLast?_filterMap_snoc {A B : Type} (choose : A → Option B) (items : List A) (item : A) :
    ((items ++ [item]).filterMap choose).getLast? =
      (choose item).or (items.filterMap choose).getLast? := by
  rw [List.filterMap_append, List.filterMap_cons, List.filterMap_nil]
  cases choose item with
  | none => rw [List.append_nil]; rfl
  | some value => rw [List.getLast?_concat]; rfl

section Inputs

open ToolActivityState

variable {field : String × String} {key other : String} {history seen : List Value}
  {update input value raw : Value} {last : Option Value}

theorem isObject_iff : isObject value = true ↔ ∃ members, value = .object members := by
  cases value <;> simp [isObject]

theorem get_of_not_object (hobject : isObject value = false) : value.get key = none := by
  cases value with
  | object members => cases hobject
  | _ => rfl

/-- What the last given input makes of the input. -/
def Shaped : Option Value → Value → Prop
  | some raw, input => isObject input = isObject raw ∧ input.isNull = false
  | none, input => isObject input = true ∨ input.isNull = true

theorem mergeJson_null : mergeJson input .null = input := by
  cases input <;> rfl

theorem isObject_mergeJson (hraw : raw.isNull = false) :
    isObject (mergeJson input raw) = isObject raw ∧ (mergeJson input raw).isNull = false := by
  cases raw with
  | null => cases hraw
  | object members => cases input <;> exact ⟨rfl, rfl⟩
  | _ => cases input <;> exact ⟨rfl, rfl⟩

theorem shaped_mergeInput (hinput : Shaped last input) :
    Shaped ((givenInput update).or last) (mergeInput update input) := by
  rw [mergeInput, givenInput]
  cases update.get "rawInput" with
  | none => exact hinput
  | some raw =>
      cases hnull : (boundedJson raw).isNull with
      | false =>
          rw [Option.map_some, Option.filter_some, hnull, Bool.not_false, if_pos rfl]
          exact isObject_mergeJson hnull
      | true =>
          have hbounded : boundedJson raw = .null := by
            cases hvalue : boundedJson raw <;> simp_all [Value.isNull]
          rw [Option.map_some, Option.filter_some, hnull, Bool.not_true, if_neg (by simp)]
          change Shaped last (mergeJson input (boundedJson raw))
          rw [hbounded, mergeJson_null]
          exact hinput

theorem shaped_makeRoom (hinput : Shaped last input) : Shaped last (makeRoom update input) := by
  rw [makeRoom]
  split_ifs with hroom
  · simp only [Bool.and_eq_true] at hroom
    cases last with
    | none => exact Or.inl rfl
    | some raw => rw [hinput.2] at hroom; exact absurd hroom.2 (by simp)
  · exact hinput

theorem keepField_shape (key other : String) (update input : Value) :
    isObject (keepField key other update input) = isObject input ∧
      (keepField key other update input).isNull = input.isNull := by
  unfold keepField
  split
  · exact ⟨rfl, rfl⟩
  · exact ⟨rfl, rfl⟩

theorem shaped_recordInput (hinput : Shaped last input) :
    Shaped ((givenInput update).or last) (recordInput input update) := by
  have hroom : Shaped _ (makeRoom update (mergeInput update input)) :=
    shaped_makeRoom (shaped_mergeInput hinput)
  rw [recordInput]
  generalize (givenInput update).or last = given at hroom
  cases given with
  | none => simpa only [Shaped, keepField_shape] using hroom
  | some raw => simpa only [Shaped, keepField_shape] using hroom

theorem shaped_foldedInput (history : List Value) :
    Shaped (lastInput history) (foldedInput history) := by
  induction history using List.reverseRecOn with
  | nil => exact Or.inr rfl
  | append_singleton history update ih =>
      rw [lastInput, getLast?_filterMap_snoc, foldedInput, List.foldl_append]
      exact shaped_recordInput ih

theorem get_keepField (key other : String) (update input : Value) :
    (keepField key other update input).get other =
      match update.get key with
      | some value => if isObject input then some (boundedJson value) else none
      | none => input.get other := by
  cases hobject : isObject input with
  | true =>
      obtain ⟨members, rfl⟩ := isObject_iff.mp hobject
      cases hfield : update.get key with
      | none => simp only [keepField, hfield]
      | some value => simp only [keepField, hfield, get_upsertMember, if_true]
  | false =>
      have hsame : keepField key other update input = input := by
        unfold keepField
        split
        · cases hobject
        · rfl
      rw [hsame, get_of_not_object hobject]
      cases update.get key with
      | none => rfl
      | some value => rfl

theorem get_keepField_of_ne {member : String} (hne : member ≠ other) :
    (keepField key member update input).get other = input.get other := by
  unfold keepField
  split
  · rw [get_upsertMember, if_neg hne]
  · rfl

theorem get_makeRoom : (makeRoom update input).get other = input.get other := by
  rw [makeRoom]
  split_ifs with hroom
  · have hnull : isObject input = false := by
      cases input with
      | null => rfl
      | _ => simp [Value.isNull] at hroom
    rw [get_of_not_object hnull]
    rfl
  · rfl

/-- What an update makes of a member that is kept. -/
theorem get_recordInput (hfield : field ∈ keptFields) :
    (recordInput input update).get field.2 =
      match update.get field.1 with
      | some value =>
          if isObject (makeRoom update (mergeInput update input)) then some (boundedJson value)
          else none
      | none => (mergeInput update input).get field.2 := by
  simp only [keptFields, List.mem_cons, List.not_mem_nil, or_false] at hfield
  rcases hfield with rfl | rfl
  · rw [recordInput, get_keepField_of_ne (by decide), get_keepField, get_makeRoom]
  · rw [recordInput, get_keepField, (keepField_shape _ _ _ _).1,
      get_keepField_of_ne (by decide), get_makeRoom]

/-- There is room for a value unless the last input is no object. -/
theorem isObject_makeRoom_iff (hfield : field ∈ keptFields) (hvalue : update.get field.1 = some value)
    (hinput : Shaped last input) :
    isObject (makeRoom update input) = true ↔ ∀ raw, last = some raw → isObject raw = true := by
  have hcarries : ((update.get "rawOutput").isSome || (update.get "locations").isSome) = true := by
    simp only [keptFields, List.mem_cons, List.not_mem_nil, or_false] at hfield
    rcases hfield with rfl | rfl
    · rw [hvalue]; rfl
    · rw [hvalue, Bool.or_comm]; rfl
  rw [makeRoom, hcarries, Bool.true_and]
  cases last with
  | none =>
      rcases hinput with hobject | hnull
      · have hfilled : input.isNull = false := by
          obtain ⟨members, rfl⟩ := isObject_iff.mp hobject
          rfl
        simp [hfilled, hobject]
      · simp [hnull, isObject]
  | some raw => simp [hinput.2, hinput.1]

theorem get_mergeInput_of_get (hmember : input.get other = some value) :
    (mergeInput update input).get other = some value ↔
      ∀ raw, update.get "rawInput" = some raw →
        (mergeJson (.object [(other, value)]) (boundedJson raw)).get other = some value := by
  have hobject : ∃ members, input = .object members := by
    cases input with
    | object members => exact ⟨members, rfl⟩
    | _ => cases hmember
  obtain ⟨members, rfl⟩ := hobject
  have hsame : (Value.object members).get other = (Value.object [(other, value)]).get other := by
    rw [hmember, get_cons, if_pos rfl]
  rw [mergeInput]
  cases update.get "rawInput" with
  | none => simp [hmember]
  | some raw =>
      have hmerge : (mergeJson (.object members) (boundedJson raw)).get other =
          (mergeJson (.object [(other, value)]) (boundedJson raw)).get other := by
        cases boundedJson raw with
        | null => rw [mergeJson_null, mergeJson_null, hsame]
        | object update => exact get_mergeMembers_congr hsame
        | _ => rfl
      simp [hmerge]

/-- An update of a call whose earlier outputs and locations are there. -/
theorem keptIn_snoc_iff (hseen : KeptIn seen (foldedInput seen)) :
    KeptIn (seen ++ [update]) (foldedInput (seen ++ [update])) ↔
      ∀ field ∈ keptFields, KeepsField field seen update := by
  have hshape : Shaped ((givenInput update).or (lastInput seen))
      (mergeInput update (foldedInput seen)) := shaped_mergeInput (shaped_foldedInput seen)
  have hlast : lastInput (seen ++ [update]) = (givenInput update).or (lastInput seen) :=
    getLast?_filterMap_snoc _ _ _
  apply forall₂_congr
  intro field hfield
  rw [lastField, getLast?_filterMap_snoc, foldedInput, List.foldl_append, List.foldl_cons,
    List.foldl_nil, get_recordInput hfield, KeepsField, hlast]
  cases hvalue : update.get field.1 with
  | some value =>
      rw [← isObject_makeRoom_iff hfield hvalue hshape]
      simp [foldedInput]
  | none =>
      simp only [Option.none_or]
      constructor
      · intro hkept value raw hbefore hraw
        exact (get_mergeInput_of_get (hseen field hfield value hbefore)).mp
          (hkept value hbefore) raw hraw
      · intro hleaves value hbefore
        apply (get_mergeInput_of_get (hseen field hfield value hbefore)).mpr
        intro raw hraw
        exact hleaves value raw hbefore hraw

/-- All that was to be kept is in the input after each update. -/
theorem keptIn_iff (history : List Value) :
    (∀ seen, seen <+: history → KeptIn seen (foldedInput seen)) ↔ KeepsFields history := by
  constructor
  · intro hkept seen update rest hsplit
    have hbefore : seen <+: history := ⟨update :: rest, hsplit.symm⟩
    have hafter : seen ++ [update] <+: history := ⟨rest, by rw [hsplit]; simp⟩
    exact (keptIn_snoc_iff (hkept seen hbefore)).mp (hkept _ hafter)
  · intro hkeeps seen
    induction seen using List.reverseRecOn with
    | nil =>
        intro hprefix field hfield value hvalue
        cases hvalue
    | append_singleton seen update ih =>
        rintro ⟨rest, hsplit⟩
        have hwhole : history = seen ++ update :: rest := by
          rw [← hsplit]
          simp
        apply (keptIn_snoc_iff (ih ⟨update :: rest, hwhole.symm⟩)).mpr
        exact hkeeps seen update rest hwhole

end Inputs

/-! ## The updates of a call -/

def isToolUpdate (update : Value) : Bool :=
  updateKind update = some "tool_call" || updateKind update = some "tool_call_update"

def toolCallId (update : Value) : Option String :=
  if isToolUpdate update then Updated.callId update else none

/-- The updates of one call. -/
def callHistory (callId : String) (updates : List Value) : List Value :=
  updates.filter fun update => toolCallId update = some callId

/-- What was seen of a call whenever it was updated. -/
def histories (updates : List Value) : List (String × List Value) :=
  updates.inits.filterMap fun seen =>
    (seen.getLast?.bind toolCallId).map fun callId => (callId, callHistory callId seen)

/-- The last text of a field that is not blank. -/
def lastText (field : String) (history : List Value) : Option String :=
  (history.filterMap (nonEmptyString · field)).getLast?

/-- The activity holds what the updates of the call say, field by field. -/
structure Folds (call : String × List Value) (activity : ToolActivity) : Prop where
  callId : activity.callId = call.1
  title : activity.title = (lastText "title" call.2).getD "Tool call"
  kind : activity.kind = lastText "kind" call.2
  status : activity.status = lastText "status" call.2
  input : activity.input = foldedInput call.2
  kept : KeptIn call.2 activity.input

section Calls

open ToolActivityState

variable {callId : String} {update : Value} {updates history : List Value}

theorem callHistory_snoc :
    callHistory callId (updates ++ [update]) =
      if toolCallId update = some callId then callHistory callId updates ++ [update]
      else callHistory callId updates := by
  rw [callHistory, List.filter_append]
  by_cases hcall : toolCallId update = some callId
  · rw [List.filter_cons_of_pos (by simpa using hcall), if_pos hcall]
    rfl
  · rw [List.filter_cons_of_neg (by simpa using hcall), if_neg hcall, List.filter_nil,
      List.append_nil]
    rfl

theorem histories_snoc :
    histories (updates ++ [update]) =
      histories updates ++
        ((toolCallId update).map fun callId =>
          (callId, callHistory callId updates ++ [update])).toList := by
  rw [histories, List.inits_append, List.filterMap_append, histories]
  cases hcall : toolCallId update with
  | none => simp [hcall]
  | some callId => simp [hcall, callHistory_snoc]

theorem mem_histories_iff :
    (callId, history) ∈ histories updates ↔
      history ≠ [] ∧ history <+: callHistory callId updates := by
  induction updates using List.reverseRecOn with
  | nil => simp [histories, callHistory]
  | append_singleton updates update ih =>
      rw [histories_snoc, List.mem_append, ih, callHistory_snoc]
      by_cases hcall : toolCallId update = some callId
      · rw [if_pos hcall, hcall, Option.map_some, Option.toList_some, List.mem_singleton,
          Prod.mk.injEq, List.prefix_concat_iff]
        constructor
        · rintro (⟨hne, hprefix⟩ | ⟨-, rfl⟩)
          · exact ⟨hne, Or.inr hprefix⟩
          · exact ⟨by simp, Or.inl rfl⟩
        · rintro ⟨hne, hwhole | hprefix⟩
          · exact Or.inr ⟨rfl, hwhole⟩
          · exact Or.inl ⟨hne, hprefix⟩
      · rw [if_neg hcall]
        constructor
        · rintro (hbefore | hnew)
          · exact hbefore
          · cases hother : toolCallId update with
            | none =>
                rw [hother] at hnew
                cases hnew
            | some other =>
                rw [hother, Option.map_some, Option.toList_some, List.mem_singleton,
                  Prod.mk.injEq] at hnew
                exact absurd (hother.trans (by rw [hnew.1])) hcall
        · exact Or.inl

/-- What the fold of the updates of a call holds. -/
theorem folded_record (history : List Value) :
    let state := history.foldl record default
    state.title = (lastText "title" history).getD "" ∧ state.kind = lastText "kind" history ∧
      state.status = lastText "status" history ∧ state.input = foldedInput history := by
  induction history using List.reverseRecOn with
  | nil => exact ⟨rfl, rfl, rfl, rfl⟩
  | append_singleton history update ih =>
      obtain ⟨htitle, hkind, hstatus, hinput⟩ := ih
      simp only [lastText, getLast?_filterMap_snoc, foldedInput, List.foldl_append, List.foldl_cons,
        List.foldl_nil, record] at htitle hkind hstatus hinput ⊢
      rw [htitle, hkind, hstatus, hinput]
      exact ⟨(Option.getD_or ..).symm, rfl, rfl, rfl⟩

theorem lastText_ne_empty {field text : String} (htext : lastText field history = some text) :
    text ≠ "" := by
  have hmem := List.mem_of_getLast? htext
  rw [List.mem_filterMap] at hmem
  obtain ⟨update, -, hfield⟩ := hmem
  rw [nonEmptyString, Option.filter_eq_some_iff] at hfield
  rintro rfl
  exact absurd hfield.2 (by decide)

theorem folds_iff (history : List Value) :
    Folds (callId, history) ((history.foldl record default).activity callId) ↔
      KeptIn history (foldedInput history) := by
  obtain ⟨htitle, hkind, hstatus, hinput⟩ := folded_record history
  constructor
  · intro hfolds
    have hkept := hfolds.kept
    rw [hfolds.input] at hkept
    exact hkept
  · intro hkept
    refine ⟨rfl, ?_, hkind, hstatus, hinput, ?_⟩
    · rw [activity]
      rw [htitle]
      cases hlast : lastText "title" history with
      | none => rfl
      | some title => exact if_neg (lastText_ne_empty hlast)
    · rw [activity, hinput]
      exact hkept

end Calls

/-! ## One update -/

namespace AcpStreamEvent

def eventKey : AcpStreamEvent → String
  | .assistantDelta key _ _ _ | .reasoningDelta key _ _ _ | .toolActivity key _
  | .providerState key _ => key

def delta? : AcpStreamEvent → Option String
  | .assistantDelta _ delta _ _ => some delta
  | _ => none

def activity? : AcpStreamEvent → Option ToolActivity
  | .toolActivity _ activity => some activity
  | _ => none

end AcpStreamEvent

def assistantDeltas (events : List AcpStreamEvent) : List String :=
  events.filterMap AcpStreamEvent.delta?

def toolActivities (events : List AcpStreamEvent) : List ToolActivity :=
  events.filterMap AcpStreamEvent.activity?

/-- An event without its key. -/
abbrev Draft := String → AcpStreamEvent

namespace Updated

def nextKey (updated : Updated) : String :=
  UpdateState.eventKey updated.state.eventKeyPrefix
    ((updated.state.nextEventOrdinal + 1) % 2 ^ 64)

/-- The event under the next key has been taken. -/
def emitted (draft : Draft) (updated : Updated) : Updated :=
  { state := { updated.state with
      nextEventOrdinal := (updated.state.nextEventOrdinal + 1) % 2 ^ 64 }
    events := updated.events ++ [draft updated.nextKey] }

/-- The two messages have been separated. -/
def separated (update : Value) (updated : Updated) : Updated :=
  if (updated.state.assistantBoundary || updated.state.messageChanged (updateMessageId update)) &&
      updated.state.answer ≠ "" then
    (updated.changeState (·.pushAnswer "\n\n")).emitted
      fun key => .assistantDelta key "\n\n" (updateMessageId update) (boundedJson update)
  else updated

def messageState (update : Value) (text : String) (state : UpdateState) : UpdateState :=
  { state with
    assistantBoundary := false
    assistantMessageId := (updateMessageId update).or state.assistantMessageId
    answer := state.answer ++ text }

def boundaryState (state : UpdateState) : UpdateState := { state with assistantBoundary := true }

/-- The call after an update of it. -/
def recorded (update : Value) (callId : String) (state : UpdateState) : ToolActivityState :=
  ((state.tools.get callId).getD .default).record update

def toolState (update : Value) (callId : String) (state : UpdateState) : UpdateState :=
  { state with
    assistantBoundary := true
    tools := state.tools.upsert callId fun _ => recorded update callId state }

/-- What an update does when the sink takes its events. -/
inductive Applies (update : Value) (updated : Updated) : Updated → Prop where
  | quiet (htext : updateText update = none) (htool : isToolUpdate update = false)
      (hthought : updateKind update ≠ some "agent_thought_chunk" ∨ contentText update = none)
      (hpermission : updateKind update ≠ some "permission_request") : Applies update updated updated
  | thought {text : String} (hkind : updateKind update = some "agent_thought_chunk")
      (htext : contentText update = some text) :
      Applies update updated (updated.emitted fun key =>
        .reasoningDelta key text (updateMessageId update) (boundedJson update))
  | permission (hkind : updateKind update = some "permission_request") :
      Applies update updated (updated.emitted fun key => .providerState key (boundedJson update))
  | unknown (htool : isToolUpdate update = true) (hcall : callId update = none) :
      Applies update updated
        ((updated.changeState boundaryState).emitted
          fun key => .providerState key (boundedJson update))
  | tool {id : String} (htool : isToolUpdate update = true) (hcall : callId update = some id) :
      Applies update updated
        ((updated.changeState (toolState update id)).emitted
          fun key => .toolActivity key ((recorded update id updated.state).activity id))
  | message {text : String} (htext : updateText update = some text) :
      Applies update updated
        (((separated update updated).changeState (messageState update text)).emitted
          fun key => .assistantDelta key text (updateMessageId update) (boundedJson update))

section Steps

variable {E : Type} {sink : EventSink E} {update : Value} {updated after : Updated} {draft : Draft}

theorem eq_of_emit (hemit : updated.emit sink draft = .ok after) :
    after = updated.emitted draft := by
  rw [emit] at hemit
  cases hsink : sink updated.events (draft updated.nextKey) with
  | error error =>
      rw [nextKey] at hsink
      simp only [hsink] at hemit
      cases hemit
  | ok taken =>
      rw [nextKey] at hsink
      simp only [hsink] at hemit
      cases hemit
      rfl

theorem eq_of_separate
    (hseparate : updated.separate sink update (updateMessageId update) = .ok after) :
    after = separated update updated := by
  rw [separate] at hseparate
  rw [separated]
  split_ifs at hseparate ⊢ with hapart
  · exact eq_of_emit hseparate
  · cases hseparate
    rfl

theorem applyMessage_cases (happly : updated.applyMessage sink update = .ok after)
    (hkind : updateKind update = some "agent_message_chunk") :
    Applies update updated after := by
  rw [applyMessage] at happly
  have hnotTool : isToolUpdate update = false := by
    rw [isToolUpdate, hkind]
    rfl
  cases htext : updateText update with
  | none =>
      simp only [htext] at happly
      cases happly
      exact .quiet htext hnotTool (Or.inl (by rw [hkind]; decide)) (by rw [hkind]; decide)
  | some text =>
      simp only [htext] at happly
      cases hseparate : updated.separate sink update (updateMessageId update) with
      | error error =>
          simp only [hseparate] at happly
          cases happly
      | ok apart =>
          simp only [hseparate] at happly
          rw [eq_of_emit happly, eq_of_separate hseparate]
          exact .message htext

theorem applyTool_cases (happly : updated.applyTool sink update = .ok after)
    (htool : isToolUpdate update = true) : Applies update updated after := by
  rw [applyTool] at happly
  cases hcall : callId update with
  | none =>
      simp only [hcall] at happly
      rw [eq_of_emit happly]
      exact .unknown htool hcall
  | some id =>
      simp only [hcall] at happly
      rw [eq_of_emit happly]
      exact .tool htool hcall

theorem updateText_of_kind {kind : String} (hkind : updateKind update = some kind)
    (hother : kind ≠ "agent_message_chunk") : updateText update = none := by
  rw [updateText, hkind, if_neg]
  simpa using hother

theorem updateText_of_tool (htool : isToolUpdate update = true) : updateText update = none := by
  rw [isToolUpdate, Bool.or_eq_true, decide_eq_true_iff, decide_eq_true_iff] at htool
  rcases htool with hkind | hkind
  · exact updateText_of_kind hkind (by decide)
  · exact updateText_of_kind hkind (by decide)

theorem apply_cases (happly : updated.apply sink update = .ok after) :
    Applies update updated after := by
  unfold apply at happly
  split at happly
  case h_1 hkind => exact applyMessage_cases happly hkind
  case h_2 hkind =>
    split at happly
    · next htext =>
      cases happly
      exact .quiet (updateText_of_kind hkind (by decide)) (by rw [isToolUpdate, hkind]; rfl)
        (Or.inr htext) (by rw [hkind]; decide)
    · next text htext =>
      rw [eq_of_emit happly]
      exact .thought hkind htext
  case h_3 hkind => exact applyTool_cases happly (by rw [isToolUpdate, hkind]; rfl)
  case h_4 hkind => exact applyTool_cases happly (by rw [isToolUpdate, hkind]; rfl)
  case h_5 hkind =>
    rw [eq_of_emit happly]
    exact .permission hkind
  case h_6 hchunk hthought hcall hupdate hpermission =>
    cases happly
    exact .quiet (if_neg hchunk) (by simpa [isToolUpdate] using ⟨hcall, hupdate⟩)
      (Or.inl hthought) hpermission

/-- What holds of the start and is kept by each update holds of what the updates end with. -/
theorem applyAll_induction (Holds : List Value → Updated → Prop) (seen : List Value)
    {updates : List Value}
    (hstep : ∀ seen update before after, Holds seen before → Applies update before after →
      Holds (seen ++ [update]) after)
    (hstart : Holds seen updated) (hrun : updated.applyAll sink updates = .ok after) :
    Holds (seen ++ updates) after := by
  induction updates generalizing seen updated with
  | nil =>
      cases hrun
      rw [List.append_nil]
      exact hstart
  | cons update updates ih =>
      rw [applyAll] at hrun
      cases happly : updated.apply sink update with
      | error error =>
          simp only [happly] at hrun
          cases hrun
      | ok next =>
          simp only [happly] at hrun
          have htail := ih _ (hstep seen update updated next hstart (apply_cases happly)) hrun
          rw [List.append_assoc] at htail
          exact htail

end Steps

end Updated

/-! ## Keys -/

/-- The keys in the order of their numbers, which are of 64 bits. -/
def turnKeys (turnId : String) (count : Nat) : List String :=
  (List.range count).map fun index => UpdateState.eventKey turnId ((index + 1) % 2 ^ 64)

theorem eventKey_injective (turnId : String) : Function.Injective (UpdateState.eventKey turnId) := by
  intro first second hkeys
  rw [UpdateState.eventKey, UpdateState.eventKey, String.append_right_inj,
    String.append_right_inj] at hkeys
  exact toString_injective hkeys

/-- The numbers come round after `2 ^ 64` events. -/
theorem turnKeys_nodup_iff (turnId : String) (count : Nat) :
    (turnKeys turnId count).Nodup ↔ count ≤ 2 ^ 64 := by
  constructor
  · intro hnodup
    by_contra hmany
    have hfirst : 0 ∈ List.range count := List.mem_range.mpr (by omega)
    have hagain : 2 ^ 64 ∈ List.range count := List.mem_range.mpr (by omega)
    have hsame := List.inj_on_of_nodup_map hnodup hfirst hagain (by norm_num)
    omega
  · intro hfew
    apply List.Nodup.map_on _ List.nodup_range
    intro first hfirst second hsecond hkeys
    have hnumbers := eventKey_injective turnId hkeys
    rw [List.mem_range] at hfirst hsecond
    omega

/-- The events are numbered one after another. -/
structure KeyedByTurn (turnId : String) (updated : Updated) : Prop where
  turn : updated.state.eventKeyPrefix = turnId
  ordinal : updated.state.nextEventOrdinal = updated.events.length % 2 ^ 64
  keys : updated.events.map (·.eventKey) = turnKeys turnId updated.events.length

namespace Updated

section Invariants

variable {turnId : String} {update : Value} {updated after : Updated} {draft : Draft}

theorem numbered_emitted (hnumbered : KeyedByTurn turnId updated)
    (hdraft : ∀ key, (draft key).eventKey = key) : KeyedByTurn turnId (updated.emitted draft) where
  turn := hnumbered.turn
  ordinal := by
    rw [emitted, hnumbered.ordinal, List.length_append, List.length_singleton, Nat.mod_add_mod]
  keys := by
    rw [emitted, List.map_append, hnumbered.keys, List.map_singleton, hdraft, nextKey, hnumbered.turn,
      hnumbered.ordinal, List.length_append, List.length_singleton, turnKeys, turnKeys,
      List.range_succ, List.map_append, List.map_singleton, Nat.mod_add_mod]

theorem numbered_changeState {change : UpdateState → UpdateState}
    (hnumbered : KeyedByTurn turnId updated)
    (hturn : (change updated.state).eventKeyPrefix = updated.state.eventKeyPrefix)
    (hordinal : (change updated.state).nextEventOrdinal = updated.state.nextEventOrdinal) :
    KeyedByTurn turnId (updated.changeState change) where
  turn := hturn.trans hnumbered.turn
  ordinal := hordinal.trans hnumbered.ordinal
  keys := hnumbered.keys

theorem numbered_separated (hnumbered : KeyedByTurn turnId updated) :
    KeyedByTurn turnId (separated update updated) := by
  rw [separated]
  split_ifs with hapart
  · exact numbered_emitted (numbered_changeState hnumbered rfl rfl) fun _ => rfl
  · exact hnumbered

theorem numbered_applies (hnumbered : KeyedByTurn turnId updated)
    (happlies : Applies update updated after) : KeyedByTurn turnId after := by
  cases happlies with
  | quiet => exact hnumbered
  | thought => exact numbered_emitted hnumbered fun _ => rfl
  | permission => exact numbered_emitted hnumbered fun _ => rfl
  | unknown => exact numbered_emitted (numbered_changeState hnumbered rfl rfl) fun _ => rfl
  | tool => exact numbered_emitted (numbered_changeState hnumbered rfl rfl) fun _ => rfl
  | message =>
      exact numbered_emitted (numbered_changeState (numbered_separated hnumbered) rfl rfl)
        fun _ => rfl

/-! ## The answer -/

theorem filterMap_emitted {A : Type} (choose : AcpStreamEvent → Option A) (draft : Draft)
    (updated : Updated) :
    (updated.emitted draft).events.filterMap choose =
      updated.events.filterMap choose ++ (choose (draft updated.nextKey)).toList := by
  rw [emitted, List.filterMap_append, List.filterMap_cons, List.filterMap_nil]
  cases choose (draft updated.nextKey) with
  | none => rfl
  | some chosen => rfl

/-- The answer is what the deltas say together. -/
def Answered (updated : Updated) : Prop :=
  updated.state.answer = String.join (assistantDeltas updated.events)

/-- An event that is no delta leaves the answer alone. -/
theorem answered_emitted (hanswered : Answered updated) (hdraft : ∀ key, (draft key).delta? = none) :
    Answered (updated.emitted draft) := by
  rw [Answered, assistantDeltas, filterMap_emitted, hdraft, Option.toList_none, List.append_nil]
  exact hanswered

/-- What is added to the answer is emitted. -/
theorem answered_added {text : String} {change : UpdateState → UpdateState}
    (hanswered : Answered updated) (hdraft : ∀ key, (draft key).delta? = some text)
    (hchange : (change updated.state).answer = updated.state.answer ++ text) :
    Answered ((updated.changeState change).emitted draft) := by
  rw [Answered, assistantDeltas, filterMap_emitted, hdraft, Option.toList_some, String.join_append]
  change (change updated.state).answer = _
  rw [hchange, hanswered, String.join_cons, String.join_nil, String.append_empty]
  rfl

theorem answered_separated (hanswered : Answered updated) :
    Answered (separated update updated) := by
  rw [separated]
  split_ifs with hapart
  · exact answered_added hanswered (fun _ => rfl) rfl
  · exact hanswered

theorem answered_applies (hanswered : Answered updated)
    (happlies : Applies update updated after) : Answered after := by
  cases happlies with
  | quiet => exact hanswered
  | thought => exact answered_emitted hanswered fun _ => rfl
  | permission => exact answered_emitted hanswered fun _ => rfl
  | unknown =>
      apply answered_emitted _ fun _ => rfl
      exact hanswered
  | tool =>
      apply answered_emitted _ fun _ => rfl
      exact hanswered
  | message => exact answered_added (answered_separated hanswered) (fun _ => rfl) rfl

/-! ## The activities -/

/-- The activity after the updates of a call. -/
def activityOf (call : String × List Value) : ToolActivity :=
  (call.2.foldl ToolActivityState.record .default).activity call.1

/-- The calls are folded, and every update of one has told what it is. -/
structure Told (seen : List Value) (updated : Updated) : Prop where
  tools (callId : String) : (updated.state.tools.get callId).getD .default =
    (callHistory callId seen).foldl ToolActivityState.record .default
  activities : toolActivities updated.events = (histories seen).map activityOf

theorem told_emitted {seen : List Value} (htold : Told seen updated)
    (hdraft : ∀ key, (draft key).activity? = none) : Told seen (updated.emitted draft) where
  tools := htold.tools
  activities := by
    rw [toolActivities, filterMap_emitted, hdraft, Option.toList_none, List.append_nil]
    exact htold.activities

theorem told_changeState {seen : List Value} {change : UpdateState → UpdateState}
    (htold : Told seen updated) (htools : (change updated.state).tools = updated.state.tools) :
    Told seen (updated.changeState change) where
  tools callId := by
    rw [← htold.tools callId, changeState, htools]
  activities := htold.activities

theorem told_separated {seen : List Value} (htold : Told seen updated) :
    Told seen (separated update updated) := by
  rw [separated]
  split_ifs with hapart
  · exact told_emitted (told_changeState htold rfl) fun _ => rfl
  · exact htold

/-- An update of no call. -/
theorem told_snoc {seen : List Value} (htold : Told seen updated)
    (hcall : toolCallId update = none) : Told (seen ++ [update]) updated where
  tools callId := by
    rw [htold.tools, callHistory_snoc, hcall, if_neg (by simp)]
  activities := by
    rw [htold.activities, histories_snoc, hcall, Option.map_none, Option.toList_none,
      List.append_nil]

theorem toolCallId_of_not_tool (htool : isToolUpdate update = false) : toolCallId update = none := by
  rw [toolCallId, htool, if_neg (by simp)]

theorem isToolUpdate_of_kind {kind : String} (hkind : updateKind update = some kind)
    (hcall : kind ≠ "tool_call") (hupdate : kind ≠ "tool_call_update") :
    isToolUpdate update = false := by
  simp [isToolUpdate, hkind, hcall, hupdate]

theorem isToolUpdate_of_text {text : String} (htext : updateText update = some text) :
    isToolUpdate update = false := by
  cases htool : isToolUpdate update with
  | false => rfl
  | true =>
      rw [updateText_of_tool htool] at htext
      cases htext

theorem told_applies {seen : List Value} (htold : Told seen updated)
    (happlies : Applies update updated after) : Told (seen ++ [update]) after := by
  cases happlies with
  | quiet htext htool => exact told_snoc htold (toolCallId_of_not_tool htool)
  | thought hkind =>
      have htool : isToolUpdate update = false :=
        isToolUpdate_of_kind hkind (by decide) (by decide)
      exact told_emitted (told_snoc htold (toolCallId_of_not_tool htool)) fun _ => rfl
  | permission hkind =>
      have htool : isToolUpdate update = false :=
        isToolUpdate_of_kind hkind (by decide) (by decide)
      exact told_emitted (told_snoc htold (toolCallId_of_not_tool htool)) fun _ => rfl
  | unknown htool hcall =>
      have hnone : toolCallId update = none := by rw [toolCallId, htool, if_pos rfl, hcall]
      exact told_emitted (told_changeState (told_snoc htold hnone) rfl) fun _ => rfl
  | message htext =>
      have hnone := toolCallId_of_not_tool (isToolUpdate_of_text htext)
      exact told_emitted (told_changeState (told_separated (told_snoc htold hnone)) rfl) fun _ => rfl
  | @tool id htool hcall =>
      have hid : toolCallId update = some id := by rw [toolCallId, htool, if_pos rfl, hcall]
      have hrecorded : recorded update id updated.state =
          (callHistory id (seen ++ [update])).foldl ToolActivityState.record .default := by
        rw [recorded, htold.tools, callHistory_snoc, if_pos hid, List.foldl_append]
        rfl
      constructor
      · intro other
        change ((updated.state.tools.upsert id fun _ => recorded update id updated.state).get
          other).getD .default = _
        rw [OrderedMap.get_upsert]
        split_ifs with hother
        · rw [hother, Option.getD_some, hrecorded]
        · have hne : toolCallId update ≠ some other := by
            rw [hid]
            exact fun heq => hother (Option.some.inj heq).symm
          rw [htold.tools, callHistory_snoc, if_neg hne]
      · rw [toolActivities, filterMap_emitted, histories_snoc, hid, List.map_append]
        change toolActivities updated.events ++ [_] = _
        rw [htold.activities, hrecorded, callHistory_snoc, if_pos hid]
        rfl

end Invariants

end Updated

/-! ## The number of events -/

/-- Some of the answer is there. -/
def hasAnswer (seen : List Value) : Bool :=
  (seen.filterMap updateText).any fun text => text ≠ ""

/-- A tool has been updated since the last chunk of the answer. -/
def atBoundary (seen : List Value) : Bool :=
  (seen.filter fun update => isToolUpdate update || (updateText update).isSome).getLast?.any
    isToolUpdate

/-- The message of the last chunk that names one. -/
def lastMessageId (seen : List Value) : Option String :=
  (seen.filterMap fun update => (updateText update).bind fun _ => updateMessageId update).getLast?

/-- A chunk begins another message, or goes on after a tool, when there is an answer. -/
def BeginsMessage (seen : List Value) (update : Value) : Prop :=
  hasAnswer seen = true ∧ (atBoundary seen = true ∨
    ∃ previous ∈ lastMessageId seen, ∃ next ∈ updateMessageId update, previous ≠ next)

instance (seen : List Value) (update : Value) : Decidable (BeginsMessage seen update) := by
  unfold BeginsMessage
  infer_instance

/-- How many events an update becomes. -/
def eventsOf (seen : List Value) (update : Value) : Nat :=
  match updateText update with
  | some _ => if BeginsMessage seen update then 2 else 1
  | none =>
      if isToolUpdate update = true ∨ updateKind update = some "permission_request" ∨
        (updateKind update = some "agent_thought_chunk" ∧ contentText update ≠ none) then 1 else 0

/-- The sum of what each update adds to those before it. -/
def sumUpdates (adds : List Value → Value → Nat) (updates : List Value) : Nat :=
  (updates.inits.map fun seen => seen.getLast?.elim 0 fun update => adds seen.dropLast update).sum

def eventCount (updates : List Value) : Nat := sumUpdates eventsOf updates

theorem sumUpdates_snoc (adds : List Value → Value → Nat) (updates : List Value) (update : Value) :
    sumUpdates adds (updates ++ [update]) = sumUpdates adds updates + adds updates update := by
  rw [sumUpdates, List.inits_append, List.map_append, List.sum_append]
  simp [sumUpdates]

theorem eventCount_snoc (updates : List Value) (update : Value) :
    eventCount (updates ++ [update]) = eventCount updates + eventsOf updates update :=
  sumUpdates_snoc eventsOf updates update

/-- What the state keeps in order to tell messages apart. -/
structure Counted (seen : List Value) (updated : Updated) : Prop where
  answer : updated.state.answer ≠ "" ↔ hasAnswer seen = true
  boundary : updated.state.assistantBoundary = atBoundary seen
  messageId : updated.state.assistantMessageId = lastMessageId seen
  count : updated.events.length = eventCount seen

namespace Updated

section Counts

variable {turnId : String} {update : Value} {updated after : Updated} {draft : Draft}
  {seen : List Value}

theorem lastMessageId_snoc :
    lastMessageId (seen ++ [update]) =
      ((updateText update).bind fun _ => updateMessageId update).or (lastMessageId seen) :=
  getLast?_filterMap_snoc _ _ _

theorem hasAnswer_snoc :
    hasAnswer (seen ++ [update]) =
      (hasAnswer seen || (updateText update).any fun text => text ≠ "") := by
  rw [hasAnswer, List.filterMap_append, List.any_append]
  cases htext : updateText update with
  | none => simp [hasAnswer, htext]
  | some text => simp [hasAnswer, htext]

theorem atBoundary_snoc :
    atBoundary (seen ++ [update]) =
      if isToolUpdate update = true ∨ (updateText update).isSome then isToolUpdate update
      else atBoundary seen := by
  rw [atBoundary, List.filter_append]
  by_cases hcounts : isToolUpdate update = true ∨ (updateText update).isSome
  · rw [List.filter_cons_of_pos (by simpa using hcounts), if_pos hcounts, List.filter_nil,
      List.getLast?_concat]
    rfl
  · rw [List.filter_cons_of_neg (by simpa using hcounts), if_neg hcounts, List.filter_nil,
      List.append_nil]
    rfl

/-- An update that is no part of the answer and of no tool. -/
theorem counted_snoc (hcounted : Counted seen updated) (htext : updateText update = none)
    (htool : isToolUpdate update = false) (hevents : after.events.length =
      updated.events.length + eventsOf seen update)
    (hanswer : after.state.answer = updated.state.answer)
    (hboundary : after.state.assistantBoundary = updated.state.assistantBoundary)
    (hmessage : after.state.assistantMessageId = updated.state.assistantMessageId) :
    Counted (seen ++ [update]) after where
  answer := by rw [hanswer, hcounted.answer, hasAnswer_snoc, htext]; simp
  boundary := by rw [hboundary, hcounted.boundary, atBoundary_snoc, htext, htool]; simp
  messageId := by rw [hmessage, hcounted.messageId, lastMessageId_snoc, htext]; rfl
  count := by rw [hevents, hcounted.count, eventCount_snoc]

theorem length_emitted : (updated.emitted draft).events.length = updated.events.length + 1 := by
  rw [emitted, List.length_append, List.length_singleton]

theorem counted_tool (hcounted : Counted seen updated) (htool : isToolUpdate update = true)
    {change : UpdateState → UpdateState}
    (hanswer : (change updated.state).answer = updated.state.answer)
    (hboundary : (change updated.state).assistantBoundary = true)
    (hmessage : (change updated.state).assistantMessageId = updated.state.assistantMessageId) :
    Counted (seen ++ [update]) ((updated.changeState change).emitted draft) where
  answer := by
    change (change updated.state).answer ≠ "" ↔ _
    rw [hanswer, hcounted.answer, hasAnswer_snoc, updateText_of_tool htool]
    simp
  boundary := by
    change (change updated.state).assistantBoundary = _
    rw [hboundary, atBoundary_snoc, if_pos (Or.inl htool), htool]
  messageId := by
    change (change updated.state).assistantMessageId = _
    rw [hmessage, hcounted.messageId, lastMessageId_snoc, updateText_of_tool htool]
    rfl
  count := by
    rw [length_emitted, eventCount_snoc, eventsOf, updateText_of_tool htool]
    simp [htool, hcounted.count, changeState]

theorem beginsMessage_iff (hcounted : Counted seen updated) :
    ((updated.state.assistantBoundary || updated.state.messageChanged (updateMessageId update)) &&
      updated.state.answer ≠ "") = true ↔ BeginsMessage seen update := by
  have hchanged : updated.state.messageChanged (updateMessageId update) = true ↔
      ∃ previous ∈ lastMessageId seen, ∃ next ∈ updateMessageId update, previous ≠ next := by
    rw [← hcounted.messageId, UpdateState.messageChanged.eq_def]
    cases updated.state.assistantMessageId with
    | none => simp
    | some previous => cases updateMessageId update <;> simp
  rw [BeginsMessage, ← hchanged, ← hcounted.answer, ← hcounted.boundary]
  simp [and_comm]

theorem length_separated (hcounted : Counted seen updated) :
    (separated update updated).events.length =
      updated.events.length + if BeginsMessage seen update then 1 else 0 := by
  rw [separated]
  by_cases hbegins : BeginsMessage seen update
  · rw [if_pos ((beginsMessage_iff hcounted).mpr hbegins), length_emitted, if_pos hbegins]
    rfl
  · rw [if_neg (mt (beginsMessage_iff hcounted).mp hbegins), if_neg hbegins]
    rfl

theorem answer_separated (hcounted : Counted seen updated) :
    (separated update updated).state.answer ≠ "" ↔ hasAnswer seen = true := by
  rw [← hcounted.answer, separated]
  split_ifs with hapart
  · rw [Bool.and_eq_true] at hapart
    have hanswer : updated.state.answer ≠ "" := by simpa using hapart.2
    simp only [hanswer, ne_eq, not_false_eq_true, iff_true]
    change updated.state.answer ++ "\n\n" ≠ ""
    simp
  · rfl

theorem messageId_separated :
    (separated update updated).state.assistantMessageId = updated.state.assistantMessageId := by
  rw [separated]
  split_ifs with hapart
  · rfl
  · rfl

theorem counted_message {text : String} (hcounted : Counted seen updated)
    (htext : updateText update = some text) :
    Counted (seen ++ [update])
      (((separated update updated).changeState (messageState update text)).emitted draft) where
  answer := by
    change (separated update updated).state.answer ++ text ≠ "" ↔ _
    rw [hasAnswer_snoc, htext, Bool.or_eq_true, ← answer_separated hcounted]
    simp [String.append_eq_empty_iff]
    tauto
  boundary := by
    change false = _
    rw [atBoundary_snoc, if_pos (Or.inr (by rw [htext]; rfl)), isToolUpdate_of_text htext]
  messageId := by
    change (updateMessageId update).or (separated update updated).state.assistantMessageId = _
    rw [messageId_separated, hcounted.messageId, lastMessageId_snoc, htext]
    rfl
  count := by
    rw [length_emitted, eventCount_snoc, eventsOf, htext, ← hcounted.count]
    change (separated update updated).events.length + 1 = _
    rw [length_separated hcounted]
    by_cases hbegins : BeginsMessage seen update
    · simp [hbegins]
    · simp [hbegins]

theorem counted_applies (hcounted : Counted seen updated)
    (happlies : Applies update updated after) : Counted (seen ++ [update]) after := by
  cases happlies with
  | quiet htext htool hthought hpermission =>
      have hnone : eventsOf seen update = 0 := by
        rw [eventsOf, htext]
        simp only
        rw [if_neg]
        simp only [htool, hpermission]
        tauto
      exact counted_snoc hcounted htext htool (by rw [hnone]; rfl) rfl rfl rfl
  | @thought text hkind htext =>
      have hother := updateText_of_kind hkind (by decide)
      have hone : eventsOf seen update = 1 := by
        rw [eventsOf, hother]
        simp [hkind, htext]
      have htool : isToolUpdate update = false :=
        isToolUpdate_of_kind hkind (by decide) (by decide)
      exact counted_snoc hcounted hother htool (by rw [length_emitted, hone]) rfl rfl rfl
  | permission hkind =>
      have hother := updateText_of_kind hkind (by decide)
      have hone : eventsOf seen update = 1 := by
        rw [eventsOf, hother]
        simp [hkind]
      have htool : isToolUpdate update = false :=
        isToolUpdate_of_kind hkind (by decide) (by decide)
      exact counted_snoc hcounted hother htool (by rw [length_emitted, hone]) rfl rfl rfl
  | unknown htool => exact counted_tool hcounted htool rfl rfl rfl
  | tool htool => exact counted_tool hcounted htool rfl rfl rfl
  | message htext => exact counted_message hcounted htext

end Counts

end Updated

/-! ## All updates of a Turn -/

/-- What the events of a Turn say of its updates. -/
structure TellsUpdates (updates : List Value) (updated : Updated) : Prop where
  answer : updated.state.answer = String.join (assistantDeltas updated.events)
  keys : (updated.events.map (·.eventKey)).Nodup
  activities : List.Forall₂ Folds (histories updates) (toolActivities updated.events)

/-- While the sink takes the events, they tell the updates if and only if the calls keep
their outputs and the numbers do not come round. -/
theorem tellsUpdates_iff {E : Type} (sink : EventSink E) (turnId : String) (updates : List Value)
    {updated : Updated} (hrun : (Updated.start turnId).applyAll sink updates = .ok updated) :
    TellsUpdates updates updated ↔
      (∀ callId, KeepsFields (callHistory callId updates)) ∧ eventCount updates ≤ 2 ^ 64 := by
  have hstart : Updated.Answered (Updated.start turnId) := String.join_nil.symm
  have hanswered : Updated.Answered updated :=
    Updated.applyAll_induction (fun _ => Updated.Answered) []
      (fun _ _ _ _ => Updated.answered_applies) hstart hrun
  have hnumbered : KeyedByTurn turnId updated :=
    Updated.applyAll_induction (fun _ => KeyedByTurn turnId) []
      (fun _ _ _ _ => Updated.numbered_applies) ⟨rfl, rfl, rfl⟩ hrun
  have htold : Updated.Told updates updated :=
    Updated.applyAll_induction Updated.Told [] (fun _ _ _ _ => Updated.told_applies)
      ⟨fun _ => rfl, rfl⟩ hrun
  have hcounted : Counted updates updated :=
    Updated.applyAll_induction Counted [] (fun _ _ _ _ => Updated.counted_applies)
      ⟨by simp [Updated.start, UpdateState.forTurn, hasAnswer], rfl, rfl, rfl⟩ hrun
  have hkeys : (updated.events.map (·.eventKey)).Nodup ↔ eventCount updates ≤ 2 ^ 64 := by
    rw [hnumbered.keys, turnKeys_nodup_iff, hcounted.count]
  have hactivities : List.Forall₂ Folds (histories updates) (toolActivities updated.events) ↔
      ∀ callId, KeepsFields (callHistory callId updates) := by
    rw [htold.activities, List.forall₂_map_right_iff, List.forall₂_same]
    constructor
    · intro hfolds callId
      apply (keptIn_iff _).mp
      intro seen hprefix
      by_cases hempty : seen = []
      · subst hempty
        intro field hfield value hvalue
        cases hvalue
      · exact (folds_iff seen).mp (hfolds _ (mem_histories_iff.mpr ⟨hempty, hprefix⟩))
    · rintro hkeeps ⟨callId, seen⟩ hmem
      exact (folds_iff seen).mpr
        ((keptIn_iff _).mpr (hkeeps callId) seen (mem_histories_iff.mp hmem).2)
  rw [← hkeys, ← hactivities]
  constructor
  · intro htells
    exact ⟨htells.activities, htells.keys⟩
  · intro hboth
    exact ⟨hanswered, hboth.2, hboth.1⟩

/-- A call whose input is a text. -/
def shellCall : Value :=
  .object [("rawInput", .string "ls"), ("rawOutput", .string "README.md"),
    ("sessionUpdate", .string "tool_call"), ("toolCallId", .string "call-1")]

theorem tellsUpdates_iff_shellCall :
    ∃ updated, (Updated.start "turn_1").applyAll (E := String) (fun _ _ => .ok ()) [shellCall] =
      .ok updated ∧
      (TellsUpdates [shellCall] updated ↔
        (∀ callId, KeepsFields (callHistory callId [shellCall])) ∧
          eventCount [shellCall] ≤ 2 ^ 64) :=
  ⟨_, rfl, tellsUpdates_iff (E := String) (fun _ _ => .ok ()) "turn_1" _ rfl⟩

/-- Beside an input that is a text there is no room for the output. -/
theorem textInput_losesOutput :
    ¬ ∀ (sink : EventSink String) (turnId : String) (updates : List Value) (updated : Updated),
      (Updated.start turnId).applyAll sink updates = .ok updated →
        TellsUpdates updates updated := by
  intro htells
  have hactivities := (htells (fun _ _ => .ok ()) "turn_1" [shellCall] _ rfl).activities
  have hhistories : histories [shellCall] = [("call-1", [shellCall])] := by decide
  rw [hhistories] at hactivities
  cases hactivities with
  | cons hfolds hrest =>
      have hkept := hfolds.kept ("rawOutput", "_mews_raw_output") (by decide)
        (.string "README.md") (by decide)
      rw [hfolds.input] at hkept
      revert hkept
      decide

end Mews
