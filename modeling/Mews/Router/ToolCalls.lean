import Mathlib.Data.List.Forall2
import Mews.Router.Anthropic
import Mews.Router.Gemini
import Mews.Router.Openai

/-!
# Tool calls of responses

Each parser turns the calls of a response into tool calls, in order.  A call that it cannot
read, for want of a name, an identifier or arguments, is left out, and the response is
accepted without it.
-/

namespace Mews

open Protocol HostProtocol

/-! ## Conversions that leave items out -/

section Conversion

variable {A B : Type} {isCall readable : A → Prop} [DecidablePred isCall] {isDelivered : B → Bool}
  {CallOf : A → B → Prop} {convert : A → List B}

/-- What is made of a call, if it is readable, is just one delivery. -/
structure Converts (isCall readable : A → Prop) (isDelivered : B → Bool) (CallOf : A → B → Prop)
    (convert : A → List B) : Prop where
  other : ∀ item, ¬isCall item → (convert item).filter isDelivered = []
  delivered : ∀ item, isCall item → readable item →
    ∃ delivery, (convert item).filter isDelivered = [delivery] ∧ CallOf item delivery
  lost : ∀ item, isCall item → ¬readable item → (convert item).filter isDelivered = []

namespace Converts

theorem length_le (hconverts : Converts isCall readable isDelivered CallOf convert)
    (items : List A) :
    ((items.flatMap convert).filter isDelivered).length ≤ (items.filter isCall).length := by
  induction items with
  | nil => exact Nat.le_refl 0
  | cons item items ih =>
      rw [List.flatMap_cons, List.filter_append, List.length_append, List.filter_cons]
      by_cases hcall : isCall item
      · rw [if_pos (decide_eq_true hcall), List.length_cons]
        by_cases hreadable : readable item
        · obtain ⟨delivery, hdelivery, -⟩ := hconverts.delivered item hcall hreadable
          rw [hdelivery, List.length_singleton]
          omega
        · rw [hconverts.lost item hcall hreadable, List.length_nil]
          omega
      · rw [if_neg (by simpa using hcall), hconverts.other item hcall, List.length_nil]
        omega

/-- All calls are delivered in order exactly if all of them are readable. -/
theorem forall₂_iff (hconverts : Converts isCall readable isDelivered CallOf convert)
    (items : List A) :
    List.Forall₂ CallOf (items.filter isCall) ((items.flatMap convert).filter isDelivered) ↔
      ∀ item ∈ items.filter isCall, readable item := by
  induction items with
  | nil => simp
  | cons item items ih =>
      rw [List.flatMap_cons, List.filter_append, List.filter_cons]
      by_cases hcall : isCall item
      · rw [if_pos (decide_eq_true hcall), List.forall_mem_cons, ← ih]
        by_cases hreadable : readable item
        · obtain ⟨delivery, hdelivery, hcallOf⟩ := hconverts.delivered item hcall hreadable
          rw [hdelivery, List.singleton_append, List.forall₂_cons]
          simp only [hcallOf, hreadable, true_and]
        · rw [hconverts.lost item hcall hreadable, List.nil_append]
          constructor
          · intro hall
            have hlength := hall.length_eq
            have hle := hconverts.length_le items
            rw [List.length_cons] at hlength
            omega
          · exact fun hall => absurd hall.1 hreadable
      · rw [if_neg (by simpa using hcall), hconverts.other item hcall, List.nil_append, ih]

end Converts

end Conversion

/-! ## The calls of a response -/

def ModelStreamEvent.isToolCall : ModelStreamEvent → Bool
  | .toolCall .. => true
  | _ => false

/-- A call is delivered with the identifier, the name and the arguments that it has. -/
def DeliveredAs {A : Type} (HasCall : A → String → String → Value → Prop) (item : A)
    (event : ModelStreamEvent) : Prop :=
  ∃ id name arguments thoughtSignature, HasCall item id name arguments ∧
    event = .toolCall id name arguments thoughtSignature

def Readable {A : Type} (HasCall : A → String → String → Value → Prop) (item : A) : Prop :=
  ∃ id name arguments, HasCall item id name arguments

theorem converts_events {A : Type} {isCall readable : A → Prop} [DecidablePred isCall]
    {HasCall : A → String → String → Value → Prop} {events : A → List ModelStreamEvent}
    (hother : ∀ item, ¬isCall item → ∀ event ∈ events item, event.isToolCall = false)
    (hdelivered : ∀ item, isCall item → readable item → ∃ id name arguments thoughtSignature,
      HasCall item id name arguments ∧
        events item = [.toolCall id name arguments thoughtSignature])
    (hlost : ∀ item, isCall item → ¬readable item →
      ∀ event ∈ events item, event.isToolCall = false) :
    Converts isCall readable ModelStreamEvent.isToolCall (DeliveredAs HasCall) events := by
  have hnone : ∀ item, (∀ event ∈ events item, event.isToolCall = false) →
      (events item).filter ModelStreamEvent.isToolCall = [] := by
    intro item hevents
    rw [List.filter_eq_nil_iff]
    intro event hevent
    rw [hevents event hevent]
    exact Bool.false_ne_true
  constructor
  · exact fun item hcall => hnone item (hother item hcall)
  · intro item hcall hreadable
    obtain ⟨id, name, arguments, thoughtSignature, hhas, hevents⟩ :=
      hdelivered item hcall hreadable
    refine ⟨.toolCall id name arguments thoughtSignature, ?_, id, name, arguments,
      thoughtSignature, hhas, rfl⟩
    rw [hevents]
    rfl
  · exact fun item hcall hreadable => hnone item (hlost item hcall hreadable)

/-- A parser that makes parts of the items of a response. -/
theorem converts_parts {A : Type} {isCall readable : A → Prop} [DecidablePred isCall]
    {HasCall : A → String → String → Value → Prop} {parts : A → List ModelPart}
    (hother : ∀ item, ¬isCall item → ∀ part ∈ parts item, part.event.isToolCall = false)
    (hdelivered : ∀ item, isCall item → readable item → ∃ id name arguments thoughtSignature,
      HasCall item id name arguments ∧
        parts item = [.toolCall id name arguments thoughtSignature])
    (hlost : ∀ item, isCall item → ¬readable item →
      ∀ part ∈ parts item, part.event.isToolCall = false) :
    Converts isCall readable ModelStreamEvent.isToolCall (DeliveredAs HasCall)
      (fun item => (parts item).map ModelPart.event) := by
  apply converts_events
  · intro item hcall
    rw [List.forall_mem_map]
    exact hother item hcall
  · intro item hcall hreadable
    obtain ⟨id, name, arguments, thoughtSignature, hhas, hparts⟩ := hdelivered item hcall hreadable
    exact ⟨id, name, arguments, thoughtSignature, hhas, by rw [hparts]; rfl⟩
  · intro item hcall hreadable
    rw [List.forall_mem_map]
    exact hlost item hcall hreadable

namespace Openai

section Calls

variable (library : StreamLibrary)

def isCall (item : Value) : Prop := item.text "type" = some "function_call"

instance : DecidablePred isCall := fun item => decEq (item.text "type") _

/-- The identifier, the name and the arguments of a call, which are JSON in a text. -/
def HasCall (item : Value) (id name : String) (arguments : Value) : Prop :=
  item.text "call_id" = some id ∧ item.text "name" = some name ∧
    ∃ text, item.text "arguments" = some text ∧ library.fromStr text = .ok arguments

variable {library}

theorem callPart_eq_some_iff {item : Value} {part : ModelPart} :
    callPart library item = some part ↔ ∃ id name arguments,
      HasCall library item id name arguments ∧ part = .toolCall id name arguments none := by
  rw [callPart]
  cases hid : item.text "call_id" with
  | none => simp [HasCall, hid]
  | some id =>
      cases hname : item.text "name" with
      | none => simp [HasCall, hname]
      | some name =>
          cases htext : item.text "arguments" with
          | none => simp [HasCall, htext]
          | some text =>
              cases harguments : library.fromStr text with
              | error error => simp [HasCall, htext, harguments]
              | ok arguments => simp [HasCall, hid, hname, htext, harguments, eq_comm]

theorem functionCall_eq (item : Value) :
    functionCall library item = (callPart library item).map ModelPart.event := by
  rw [functionCall, callPart]
  cases item.text "call_id" with
  | none => rfl
  | some id =>
      cases item.text "name" with
      | none => rfl
      | some name =>
          cases item.text "arguments" with
          | none => rfl
          | some text =>
              simp only [Option.bind_eq_bind, Option.bind_some]
              cases library.fromStr text with
              | error error => rfl
              | ok arguments => rfl

variable (library) in
/-- What is made of an item of a response that came whole. -/
theorem converts_itemParts (provider model : String) :
    Converts isCall (Readable (HasCall library)) ModelStreamEvent.isToolCall
      (DeliveredAs (HasCall library))
      (fun item => (itemParts library provider model item).map ModelPart.event) := by
  apply converts_parts
  · intro item hother part hpart
    rw [itemParts] at hpart
    split at hpart
    · obtain ⟨text, -, rfl⟩ := List.mem_map.mp hpart
      rfl
    · next htype => exact absurd htype hother
    · rcases List.mem_append.mp hpart with hsummary | hstate
      · obtain ⟨text, -, rfl⟩ := List.mem_map.mp hsummary
        rfl
      · split_ifs at hstate
        · rw [List.mem_singleton.mp hstate]
          rfl
        · exact absurd hstate List.not_mem_nil
    · exact absurd hpart List.not_mem_nil
  · rintro item htype ⟨id, name, arguments, hcall⟩
    have hpart := callPart_eq_some_iff.mpr ⟨id, name, arguments, hcall, rfl⟩
    refine ⟨id, name, arguments, none, hcall, ?_⟩
    rw [itemParts, htype]
    simp only [hpart]
    rfl
  · intro item htype hlost part hpart
    rw [itemParts, htype] at hpart
    obtain ⟨id, name, arguments, hcall, -⟩ := callPart_eq_some_iff.mp (Option.mem_toList.mp hpart)
    exact absurd ⟨id, name, arguments, hcall⟩ hlost

end Calls

end Openai

namespace Anthropic

def isCall (part : Value) : Prop := part.text "type" = some "tool_use"

instance : DecidablePred isCall := fun part => decEq (part.text "type") _

/-- The identifier, the name of the tool in the catalog if there is one, and the input. -/
def HasCall (tools : List ToolDefinition) (part : Value) (id name : String) (arguments : Value) :
    Prop :=
  part.text "id" = some id ∧
    (∃ sent, part.text "name" = some sent ∧ name = (catalogName tools sent).getD sent) ∧
    part.get "input" = some arguments

variable {tools : List ToolDefinition} {model : String}

theorem parsePart_call {part : Value} (htype : isCall part) {event : ModelPart} :
    parsePart model tools part = some event ↔ ∃ id name arguments,
      HasCall tools part id name arguments ∧ event = .toolCall id name arguments none := by
  rw [parsePart, htype]
  simp only
  cases hid : part.text "id" with
  | none => simp [HasCall, hid]
  | some id =>
      cases hname : part.text "name" with
      | none => simp [HasCall, hname]
      | some sent =>
          cases hinput : part.get "input" with
          | none => simp [HasCall, hinput]
          | some arguments =>
              cases hfound : catalogName tools sent with
              | none => simp [HasCall, hid, hname, hinput, hfound, eq_comm]
              | some name => simp [HasCall, hid, hname, hinput, hfound, eq_comm]

theorem converts_parsePart (tools : List ToolDefinition) (model : String) :
    Converts isCall (Readable (HasCall tools)) ModelStreamEvent.isToolCall
      (DeliveredAs (HasCall tools))
      (fun part => (parsePart model tools part).toList.map ModelPart.event) := by
  have hconverts := @converts_parts _ isCall (Readable (HasCall tools)) _ (HasCall tools)
    (fun part => (parsePart model tools part).toList)
  apply hconverts
  · intro part hother parsed hparsed
    rw [Option.mem_toList, parsePart] at hparsed
    split at hparsed
    · obtain ⟨text, -, rfl⟩ := Option.map_eq_some_iff.mp hparsed
      rfl
    · next htype => exact absurd htype hother
    · obtain ⟨text, -, rfl⟩ := Option.map_eq_some_iff.mp hparsed
      rfl
    · cases hparsed
      rfl
    · exact absurd hparsed (Option.some_ne_none _).symm
  · rintro part htype ⟨id, name, arguments, hcall⟩
    have hparsed := (@parsePart_call _ model _ htype _).mpr ⟨id, name, arguments, hcall, rfl⟩
    exact ⟨id, name, arguments, none, hcall, by rw [hparsed]; rfl⟩
  · intro part htype hlost parsed hparsed
    obtain ⟨id, name, arguments, hcall, -⟩ := (parsePart_call htype).mp (Option.mem_toList.mp hparsed)
    exact absurd ⟨id, name, arguments, hcall⟩ hlost

end Anthropic

namespace Gemini

def isCall (part : Value) : Prop := (part.get "functionCall").isSome = true

instance : DecidablePred isCall := fun part => decEq (part.get "functionCall").isSome _

/-- The identifier and the arguments where the call has them, and its name. -/
def HasCall (part : Value) (id name : String) (arguments : Value) : Prop :=
  ∃ call, part.get "functionCall" = some call ∧ call.text "name" = some name ∧
    (∀ given ∈ call.text "id", id = given) ∧ ∀ given ∈ call.get "args", arguments = given

/-- The call has a name and no text stands before it. -/
def ReadableCall (part : Value) : Prop :=
  part.text "text" = none ∧ Readable HasCall part

theorem parsePart_of_text {newId text : String} {part : Value}
    (htext : part.text "text" = some text) {parsed : ModelPart}
    (hparsed : parsePart newId part = some parsed) : parsed.event.isToolCall = false := by
  rw [parsePart, htext] at hparsed
  simp only at hparsed
  split_ifs at hparsed
  · cases hparsed
    rfl
  · cases hparsed
    rfl

theorem parsePart_of_none {newId : String} {part : Value} (htext : part.text "text" = none)
    {parsed : ModelPart} : parsePart newId part = some parsed ↔
      ∃ call name, part.get "functionCall" = some call ∧ call.text "name" = some name ∧
        parsed = .toolCall ((call.text "id").getD newId) name
          ((call.get "args").getD (.object [])) (part.text "thoughtSignature") := by
  rw [parsePart, htext]
  simp only
  cases hcall : part.get "functionCall" with
  | none => simp
  | some call =>
      cases hname : call.text "name" with
      | none => simp [hname]
      | some name => simp [hname, eq_comm]

/-- The parts are parsed with the identifiers that are made for them. -/
theorem converts_parsePart (newIds : Nat → String) :
    Converts (fun part : Value × Nat => isCall part.1) (fun part => ReadableCall part.1)
      ModelStreamEvent.isToolCall (DeliveredAs fun part => HasCall part.1)
      (fun part => (parsePart (newIds part.2) part.1).toList.map ModelPart.event) := by
  have hconverts := @converts_parts _ (fun part : Value × Nat => isCall part.1)
    (fun part => ReadableCall part.1) _ (fun part => HasCall part.1)
    (fun part => (parsePart (newIds part.2) part.1).toList)
  apply hconverts
  · intro part hother parsed hparsed
    rw [Option.mem_toList] at hparsed
    cases htext : part.1.text "text" with
    | some text => exact parsePart_of_text htext hparsed
    | none =>
        obtain ⟨call, name, hcall, -⟩ := (parsePart_of_none htext).mp hparsed
        exact absurd (Option.isSome_iff_exists.mpr ⟨call, hcall⟩) hother
  · rintro part - ⟨htext, id, name, arguments, call, hcall, hname, -⟩
    have hparsed := (@parsePart_of_none (newIds part.2) _ htext _).mpr
      ⟨call, name, hcall, hname, rfl⟩
    refine ⟨_, name, _, _, ⟨call, hcall, hname, ?_, ?_⟩, by rw [hparsed]; rfl⟩
    · intro given hgiven
      rw [hgiven, Option.getD_some]
    · intro given hgiven
      rw [hgiven, Option.getD_some]
  · intro part _ hlost parsed hparsed
    rw [Option.mem_toList] at hparsed
    cases htext : part.1.text "text" with
    | some text => exact parsePart_of_text htext hparsed
    | none =>
        obtain ⟨call, name, hcall, hname, -⟩ := (parsePart_of_none htext).mp hparsed
        refine absurd ⟨htext, (call.text "id").getD "", name, (call.get "args").getD .null, call,
          hcall, hname, ?_, ?_⟩ hlost
        · intro given hgiven
          rw [hgiven, Option.getD_some]
        · intro given hgiven
          rw [hgiven, Option.getD_some]

end Gemini

end Mews
