import Mathlib.Data.List.Induction
import Mathlib.Data.String.Basic
import Mathlib.Order.WithBot
import Mews.Core.OrderedMap
import Mews.Store.Command

/-!
# Reasoning of an ACP Turn

The deltas of a Turn's reasoning are collected by message, all messages together
within one limit of bytes, and recorded when the prompt has ended.  A delta that
does not fit is cut at a character, which can leave a few bytes that a later delta
of the same message fills.
-/

namespace Mews

open Protocol Store

def maxDurableAcpReasoningBytes : Nat := 64 * 1024

/-- `str::char_indices` from an index on, without the characters. -/
def charIndices : Nat → List Char → List Nat
  | _, [] => []
  | index, char :: rest => index :: charIndices (index + char.utf8Size) rest

/-- `&text[..stop]` at a character boundary. -/
def sliceTo : Nat → List Char → List Char
  | _, [] => []
  | 0, _ :: _ => []
  | stop + 1, char :: rest => char :: sliceTo (stop + 1 - char.utf8Size) rest

/-- The messages in the order of the map, the one without an identifier first. -/
structure MessageKey where
  messageId : Option String

namespace MessageKey

def rank (key : MessageKey) : WithBot String :=
  key.messageId.elim ⊥ fun messageId => messageId

theorem rank_injective : Function.Injective rank := by
  rintro ⟨_ | left⟩ ⟨_ | right⟩ heq
  · rfl
  · exact absurd heq.symm (WithBot.coe_ne_bot)
  · exact absurd heq WithBot.coe_ne_bot
  · rw [WithBot.coe_injective heq]

instance : LinearOrder MessageKey := LinearOrder.lift' rank rank_injective

end MessageKey

structure AcpReasoningAggregate where
  items : OrderedMap MessageKey String
  bytes : Nat

/-- A reasoning delta with its message. -/
abbrev ReasoningDelta := Option String × String

namespace AcpReasoningAggregate

def default : AcpReasoningAggregate := ⟨.empty, 0⟩

/-- The part of a delta that is stored when so many bytes remain. -/
def chunk (remaining : Nat) (delta : String) : String :=
  let stop :=
    ((charIndices 0 delta.toList).takeWhile fun index => index ≤ remaining).getLast?.getD 0
  if delta.utf8ByteSize ≤ remaining then delta else String.ofList (sliceTo stop delta.toList)

/-- The bytes that are still free. -/
def remaining (aggregate : AcpReasoningAggregate) : Nat :=
  maxDurableAcpReasoningBytes - aggregate.bytes

def push (aggregate : AcpReasoningAggregate) (messageId : Option String) (delta : String) :
    AcpReasoningAggregate :=
  if aggregate.remaining = 0 then aggregate
  else
    { items := aggregate.items.upsert ⟨messageId⟩ fun text =>
        text.getD "" ++ chunk aggregate.remaining delta
      bytes := aggregate.bytes + (chunk aggregate.remaining delta).utf8ByteSize }

/-- What is recorded at the end of the prompt. -/
def persist (aggregate : AcpReasoningAggregate) (sessionId : SessionId) (turnId : TurnId) :
    List StoreOp :=
  aggregate.items.rows.zipIdx.map fun ((key, text), index) =>
    .appendReasoning sessionId turnId text .visible (.harness "acp" key.messageId)
      (some ("reasoning_completed:" ++ turnId.asStr ++ ":" ++ toString index))

/-- The aggregate after the deltas of a prompt. -/
def collect (deltas : List ReasoningDelta) : AcpReasoningAggregate :=
  deltas.foldl (fun aggregate delta => aggregate.push delta.1 delta.2) default

/-- The text that is stored of a message. -/
def stored (aggregate : AcpReasoningAggregate) (messageId : Option String) : String :=
  (aggregate.items.get ⟨messageId⟩).getD ""

end AcpReasoningAggregate

/-! ## Cutting at a character -/

/-- The longest prefix of whole characters within so many bytes. -/
def fitting : Nat → List Char → List Char
  | _, [] => []
  | room, char :: rest =>
      if char.utf8Size ≤ room then char :: fitting (room - char.utf8Size) rest else []

section Fitting

variable {room : Nat} {char : Char} {chars rest : List Char}

theorem prefix_fitting (room : Nat) (chars : List Char) : fitting room chars <+: chars := by
  induction chars generalizing room with
  | nil => exact List.prefix_rfl
  | cons char chars ih =>
      rw [fitting]
      split_ifs with hfits
      · exact (List.prefix_cons_inj char).mpr (ih _)
      · exact List.nil_prefix

theorem utf8Len_fitting_le (room : Nat) (chars : List Char) :
    String.utf8Len (fitting room chars) ≤ room := by
  induction chars generalizing room with
  | nil => simp [fitting]
  | cons char chars ih =>
      rw [fitting]
      split_ifs with hfits
      · have hrest := ih (room - char.utf8Size)
        rw [String.utf8Len_cons]
        omega
      · simp

theorem fitting_of_le (hfits : String.utf8Len chars ≤ room) : fitting room chars = chars := by
  induction chars generalizing room with
  | nil => rfl
  | cons char chars ih =>
      rw [String.utf8Len_cons] at hfits
      rw [fitting, if_pos (by omega), ih (by omega)]

theorem fitting_zero : fitting 0 chars = [] := by
  cases chars with
  | nil => rfl
  | cons char rest =>
      have hpos := char.utf8Size_pos
      rw [fitting, if_neg (by omega)]

/-- Nothing is cut, or the first character that is cut does not fit into what remains. -/
theorem fitting_cases (room : Nat) (chars : List Char) :
    fitting room chars = chars ∨ ∃ char rest, chars = fitting room chars ++ char :: rest ∧
      room - String.utf8Len (fitting room chars) < char.utf8Size := by
  induction chars generalizing room with
  | nil => exact Or.inl rfl
  | cons char chars ih =>
      rw [fitting]
      split_ifs with hfits
      · rcases ih (room - char.utf8Size) with hwhole | ⟨next, rest, hsplit, hroom⟩
        · rw [hwhole]
          exact Or.inl rfl
        · have hleft : room - String.utf8Len (char :: fitting (room - char.utf8Size) chars) <
              next.utf8Size := by
            rw [String.utf8Len_cons]
            omega
          exact Or.inr ⟨next, rest, by rw [List.cons_append, ← hsplit], hleft⟩
      · exact Or.inr ⟨char, chars, rfl, by simpa using hfits⟩

theorem fitting_eq_nil_of_lt (hroom : room < char.utf8Size) : fitting room (char :: rest) = [] := by
  rw [fitting, if_neg (by omega)]

/-- The last index within the limit is where the characters that fit end. -/
theorem getLast_charIndices (start room : Nat) (chars : List Char)
    (hlong : room < String.utf8Len chars) :
    ((charIndices start chars).takeWhile fun index => index ≤ start + room).getLast?.getD start =
      start + String.utf8Len (fitting room chars) := by
  induction chars generalizing start room with
  | nil => simp at hlong
  | cons char chars ih =>
      rw [String.utf8Len_cons] at hlong
      rw [charIndices, List.takeWhile_cons_of_pos (by simp), List.getLast?_cons, Option.getD_some,
        fitting]
      cases chars with
      | nil =>
          rw [String.utf8Len_nil] at hlong
          rw [if_neg (by omega)]
          rfl
      | cons next rest =>
          by_cases hfits : char.utf8Size ≤ room
          · have htail := ih (start + char.utf8Size) (room - char.utf8Size) (by omega)
            have hroom : start + char.utf8Size + (room - char.utf8Size) = start + room := by omega
            rw [hroom, charIndices, List.takeWhile_cons_of_pos (by simp; omega),
              List.getLast?_cons, Option.getD_some] at htail
            rw [if_pos hfits, charIndices, List.takeWhile_cons_of_pos (by simp; omega),
              List.getLast?_cons, Option.getD_some, htail, String.utf8Len_cons]
            omega
          · rw [if_neg hfits, charIndices, List.takeWhile_cons_of_neg (by simp; omega)]
            rfl

theorem utf8Size_le_of_fitting_eq_cons (hfitting : fitting room chars = char :: rest) :
    char.utf8Size ≤ room := by
  have hlength := utf8Len_fitting_le room chars
  rw [hfitting, String.utf8Len_cons] at hlength
  omega

theorem length_fitting_lt (room : Nat) (chars : List Char) :
    (fitting room chars).length < chars.length ↔ room < String.utf8Len chars := by
  constructor
  · intro hlength
    by_contra hfits
    rw [fitting_of_le (by omega)] at hlength
    exact lt_irrefl _ hlength
  · intro hlong
    apply lt_of_le_of_ne (prefix_fitting _ _).length_le
    intro heq
    have hlength := utf8Len_fitting_le room chars
    rw [(prefix_fitting _ _).eq_of_length heq] at hlength
    omega

theorem fitting_cons_of_le (hfits : char.utf8Size ≤ room) :
    fitting room (char :: rest) = char :: fitting (room - char.utf8Size) rest := by
  rw [fitting, if_pos hfits]

theorem sliceTo_of_pos {stop : Nat} (hstop : 0 < stop) :
    sliceTo stop (char :: rest) = char :: sliceTo (stop - char.utf8Size) rest := by
  cases stop with
  | zero => omega
  | succ stop => rfl

theorem sliceTo_append (chars rest : List Char) :
    sliceTo (String.utf8Len chars) (chars ++ rest) = chars := by
  induction chars with
  | nil => cases rest <;> rfl
  | cons char chars ih =>
      have hpos := char.utf8Size_pos
      rw [List.cons_append, String.utf8Len_cons, sliceTo_of_pos (by omega), Nat.add_sub_cancel, ih]

end Fitting

namespace AcpReasoningAggregate

/-- What is stored of a delta is what fits, and the cut is at a character. -/
theorem toList_chunk (remaining : Nat) (delta : String) :
    (chunk remaining delta).toList = fitting remaining delta.toList := by
  have hbytes : delta.utf8ByteSize = String.utf8Len delta.toList := by
    rw [← String.utf8ByteSize_ofList, String.ofList_toList]
  rw [chunk]
  split_ifs with hfits
  · rw [fitting_of_le (hbytes ▸ hfits)]
  · have hstop := getLast_charIndices 0 remaining delta.toList (by omega)
    simp only [Nat.zero_add] at hstop
    obtain ⟨rest, hrest⟩ := prefix_fitting remaining delta.toList
    rw [String.toList_ofList, hstop]
    calc sliceTo (String.utf8Len (fitting remaining delta.toList)) delta.toList
        = sliceTo (String.utf8Len (fitting remaining delta.toList))
            (fitting remaining delta.toList ++ rest) := by rw [hrest]
      _ = fitting remaining delta.toList := sliceTo_append _ _

variable {aggregate : AcpReasoningAggregate} {deltas : List ReasoningDelta}
  {messageId other : Option String} {delta : String}

theorem utf8ByteSize_eq (text : String) : text.utf8ByteSize = String.utf8Len text.toList := by
  rw [← String.utf8ByteSize_ofList, String.ofList_toList]

theorem toList_stored_push :
    ((aggregate.push messageId delta).stored other).toList =
      (aggregate.stored other).toList ++
        if other = messageId then fitting aggregate.remaining delta.toList else [] := by
  rw [push]
  split_ifs with hfull hsame hsame
  · rw [hfull, fitting_zero, List.append_nil]
  · rw [List.append_nil]
  · subst hsame
    rw [stored, OrderedMap.get_upsert, if_pos rfl, Option.getD_some, String.toList_append,
      toList_chunk, stored]
  · have hkey : (⟨other⟩ : MessageKey) ≠ ⟨messageId⟩ := fun heq => hsame (congrArg (·.messageId) heq)
    rw [stored, OrderedMap.get_upsert, if_neg hkey, List.append_nil, stored]

theorem bytes_push :
    (aggregate.push messageId delta).bytes =
      aggregate.bytes + String.utf8Len (fitting aggregate.remaining delta.toList) := by
  rw [push]
  split_ifs with hfull
  · rw [hfull, fitting_zero]
    rfl
  · rw [utf8ByteSize_eq, toList_chunk]

/-- The count of the bytes is right and within the limit. -/
structure Sized (aggregate : AcpReasoningAggregate) : Prop where
  total : aggregate.items.total String.utf8ByteSize = aggregate.bytes
  within : aggregate.bytes ≤ maxDurableAcpReasoningBytes

theorem Sized.push (hsized : aggregate.Sized) : (aggregate.push messageId delta).Sized := by
  have hwithin := hsized.within
  have hchunk := utf8Len_fitting_le aggregate.remaining delta.toList
  constructor
  · rw [bytes_push, AcpReasoningAggregate.push]
    split_ifs with hfull
    · rw [hsized.total, hfull, fitting_zero]
      rfl
    · have htotal := @OrderedMap.total_upsert _ _ _ ⟨messageId⟩
        (fun text => text.getD "" ++ chunk aggregate.remaining delta) aggregate.items
        String.utf8ByteSize
      have hold : (aggregate.items.get ⟨messageId⟩).elim 0 String.utf8ByteSize =
          ((aggregate.items.get ⟨messageId⟩).getD "").utf8ByteSize := by
        cases aggregate.items.get ⟨messageId⟩ <;> rfl
      rw [String.utf8ByteSize_append, hold, hsized.total, utf8ByteSize_eq (chunk _ _),
        toList_chunk] at htotal
      change (aggregate.items.upsert _ _).total _ = _
      omega
  · rw [bytes_push]
    rw [remaining] at hchunk ⊢
    omega

theorem collect_append (deltas' : List ReasoningDelta) :
    collect (deltas ++ deltas') =
      deltas'.foldl (fun aggregate delta => aggregate.push delta.1 delta.2) (collect deltas) :=
  List.foldl_append

theorem collect_snoc : collect (deltas ++ [(messageId, delta)]) =
    (collect deltas).push messageId delta :=
  collect_append _

theorem sized_collect (deltas : List ReasoningDelta) : (collect deltas).Sized := by
  induction deltas using List.reverseRecOn with
  | nil => exact ⟨rfl, Nat.zero_le _⟩
  | append_singleton deltas delta ih =>
      rw [collect_snoc]
      exact ih.push

/-! ## What is stored of a message -/

/-- The text that the deltas of a message make together. -/
def spoken (messageId : Option String) (deltas : List ReasoningDelta) : List Char :=
  (deltas.filter fun delta => delta.1 = messageId).flatMap fun delta => delta.2.toList

theorem spoken_snoc : spoken other (deltas ++ [(messageId, delta)]) =
    spoken other deltas ++ if other = messageId then delta.toList else [] := by
  rw [spoken, List.filter_append, List.flatMap_append, ← spoken]
  by_cases hsame : other = messageId
  · simp [hsame]
  · simp [hsame, Ne.symm hsame]

/-- The room that is left of `room` bytes when each delta takes the characters that fit. -/
def roomAfter (room : Nat) (deltas : List ReasoningDelta) : Nat :=
  deltas.foldl (fun room delta => room - String.utf8Len (fitting room delta.2.toList)) room

theorem remaining_push : (aggregate.push messageId delta).remaining =
    aggregate.remaining - String.utf8Len (fitting aggregate.remaining delta.toList) := by
  rw [remaining, bytes_push, Nat.sub_add_eq, ← remaining]

theorem roomAfter_snoc {room : Nat} : roomAfter room (deltas ++ [(messageId, delta)]) =
    roomAfter room deltas - String.utf8Len (fitting (roomAfter room deltas) delta.toList) :=
  List.foldl_append

theorem remaining_collect (deltas : List ReasoningDelta) :
    (collect deltas).remaining = roomAfter maxDurableAcpReasoningBytes deltas := by
  induction deltas using List.reverseRecOn with
  | nil => rfl
  | append_singleton deltas delta ih =>
      rw [collect_snoc, remaining_push, roomAfter_snoc, ih]

theorem length_stored_le (messageId : Option String) (deltas : List ReasoningDelta) :
    ((collect deltas).stored messageId).toList.length ≤ (spoken messageId deltas).length := by
  induction deltas using List.reverseRecOn with
  | nil => exact Nat.le_refl 0
  | append_singleton deltas delta ih =>
      rw [collect_snoc, toList_stored_push, spoken_snoc, List.length_append, List.length_append]
      split_ifs with hsame
      · exact Nat.add_le_add ih (prefix_fitting _ _).length_le
      · simpa using ih

/-- What is stored of a message begins its text. -/
def Prefixed (messageId : Option String) (deltas : List ReasoningDelta) : Prop :=
  ((collect deltas).stored messageId).toList <+: spoken messageId deltas

/-- It began its text all along. -/
theorem Prefixed.of_append {deltas' : List ReasoningDelta}
    (hprefixed : Prefixed messageId (deltas ++ deltas')) : Prefixed messageId deltas := by
  induction deltas' using List.reverseRecOn with
  | nil => simpa using hprefixed
  | append_singleton deltas' delta ih =>
      apply ih
      rw [← List.append_assoc, Prefixed, collect_snoc, toList_stored_push, spoken_snoc] at hprefixed
      have hstored := (List.prefix_append _ _).trans hprefixed
      exact List.prefix_of_prefix_length_le hstored (List.prefix_append _ _) (length_stored_le _ _)

/-- The text of a message is stored, or the character after what is stored does not fit. -/
theorem Prefixed.stored_cases (hprefixed : Prefixed messageId deltas) :
    ((collect deltas).stored messageId).toList = spoken messageId deltas ∨
      ∃ char rest, spoken messageId deltas =
        ((collect deltas).stored messageId).toList ++ char :: rest ∧
          (collect deltas).remaining < char.utf8Size := by
  induction deltas using List.reverseRecOn with
  | nil => exact Or.inl rfl
  | append_singleton deltas delta ih =>
      obtain ⟨other, delta⟩ := delta
      have hbefore := ih hprefixed.of_append
      rw [Prefixed, collect_snoc, toList_stored_push, spoken_snoc] at hprefixed
      rw [collect_snoc, toList_stored_push, spoken_snoc, remaining_push]
      rcases hbefore with hwhole | ⟨char, rest, hsplit, hleft⟩
      · rw [hwhole]
        split_ifs with hsame
        · rcases fitting_cases (collect deltas).remaining delta.toList with
            hfits | ⟨char, rest, hcut, hleft⟩
          · exact Or.inl (congrArg _ hfits)
          · exact Or.inr ⟨char, rest, by rw [List.append_assoc, ← hcut], hleft⟩
        · exact Or.inl rfl
      · rw [hsplit] at hprefixed ⊢
        have hnone : (if messageId = other then fitting (collect deltas).remaining delta.toList
            else []) = [] := by
          split_ifs at hprefixed ⊢ with hsame
          · cases hfitting : fitting (collect deltas).remaining delta.toList with
            | nil => rfl
            | cons first tail =>
                rw [hfitting, List.append_assoc, List.prefix_append_right_inj, List.cons_append,
                  List.cons_prefix_cons] at hprefixed
                have hfirst := utf8Size_le_of_fitting_eq_cons hfitting
                rw [hprefixed.1] at hfirst
                omega
          · rfl
        rw [hnone, List.append_nil]
        exact Or.inr ⟨char, _, by rw [List.append_assoc, List.cons_append], by omega⟩

/-- A split of deltas at one of them is a split before the last one, or at the last one. -/
theorem exists_split_snoc {last : ReasoningDelta}
    {condition : List ReasoningDelta → ReasoningDelta → Prop} :
    (∃ before delta after, deltas ++ [last] = before ++ delta :: after ∧ condition before delta) ↔
      (∃ before delta after, deltas = before ++ delta :: after ∧ condition before delta) ∨
        condition deltas last := by
  constructor
  · rintro ⟨before, delta, after, hsplit, hcondition⟩
    induction after using List.reverseRecOn with
    | nil =>
        obtain ⟨hbefore, hlast⟩ := List.append_inj' hsplit rfl
        rw [hbefore, List.singleton_inj.mp hlast]
        exact Or.inr hcondition
    | append_singleton after other =>
        rw [← List.cons_append, ← List.append_assoc] at hsplit
        exact Or.inl ⟨before, delta, after, (List.append_inj' hsplit rfl).1, hcondition⟩
  · rintro (⟨before, delta, after, hsplit, hcondition⟩ | hcondition)
    · exact ⟨before, delta, after ++ [last], by rw [hsplit]; simp, hcondition⟩
    · exact ⟨deltas, last, [], rfl, hcondition⟩

/-- A delta of the message does not fit whole when it arrives. -/
def Cut (messageId : Option String) (deltas : List ReasoningDelta) : Prop :=
  ∃ before delta after, deltas = before ++ delta :: after ∧
    (messageId = delta.1 ∧
      roomAfter maxDurableAcpReasoningBytes before < String.utf8Len delta.2.toList)

/-- A delta of the message begins with a character that fits, after one of its deltas
has been cut. -/
def Refilled (messageId : Option String) (deltas : List ReasoningDelta) : Prop :=
  ∃ before delta after, deltas = before ++ delta :: after ∧
    (messageId = delta.1 ∧ Cut messageId before ∧ ∃ char ∈ delta.2.toList.head?,
      char.utf8Size ≤ roomAfter maxDurableAcpReasoningBytes before)

theorem cut_snoc : Cut other (deltas ++ [(messageId, delta)]) ↔ Cut other deltas ∨
    other = messageId ∧
      roomAfter maxDurableAcpReasoningBytes deltas < String.utf8Len delta.toList :=
  exists_split_snoc

theorem refilled_snoc : Refilled other (deltas ++ [(messageId, delta)]) ↔
    Refilled other deltas ∨ other = messageId ∧ Cut other deltas ∧
      ∃ char ∈ delta.toList.head?, char.utf8Size ≤ roomAfter maxDurableAcpReasoningBytes deltas :=
  exists_split_snoc

/-- A message has been cut when less is stored of it than its deltas say. -/
theorem cut_iff : Cut messageId deltas ↔
    ((collect deltas).stored messageId).toList.length < (spoken messageId deltas).length := by
  induction deltas using List.reverseRecOn with
  | nil =>
      constructor
      · rintro ⟨before, delta, after, hsplit, -⟩
        exact absurd hsplit (by simp)
      · exact fun hlength => absurd hlength (lt_irrefl 0)
  | append_singleton deltas delta ih =>
      obtain ⟨other, delta⟩ := delta
      have hle := length_stored_le messageId deltas
      have hfitting := (prefix_fitting (collect deltas).remaining delta.toList).length_le
      have hcut := length_fitting_lt (collect deltas).remaining delta.toList
      rw [cut_snoc, ih, collect_snoc, toList_stored_push, spoken_snoc, List.length_append,
        List.length_append, ← remaining_collect, ← hcut]
      by_cases hsame : messageId = other
      · rw [if_pos hsame, if_pos hsame]
        simp only [hsame, true_and] at hle ⊢
        omega
      · rw [if_neg hsame, if_neg hsame]
        simp [hsame]

theorem prefixed_snoc : Prefixed other (deltas ++ [(messageId, delta)]) ↔
    Prefixed other deltas ∧ ¬(other = messageId ∧ Cut other deltas ∧
      ∃ char ∈ delta.toList.head?,
        char.utf8Size ≤ roomAfter maxDurableAcpReasoningBytes deltas) := by
  rw [← remaining_collect]
  constructor
  · intro hprefixed
    have hbefore := hprefixed.of_append
    refine ⟨hbefore, ?_⟩
    rintro ⟨rfl, hcut, char, hchar, hfits⟩
    obtain ⟨rest, hdelta⟩ := List.head?_eq_some_iff.mp hchar
    rw [Prefixed, collect_snoc, toList_stored_push, spoken_snoc, if_pos rfl, if_pos rfl, hdelta,
      fitting_cons_of_le hfits] at hprefixed
    rw [cut_iff] at hcut
    rcases hbefore.stored_cases with hwhole | ⟨missing, tail, hsplit, hleft⟩
    · rw [hwhole] at hcut
      exact lt_irrefl _ hcut
    · rw [hsplit, List.append_assoc, List.prefix_append_right_inj, List.cons_append,
        List.cons_prefix_cons] at hprefixed
      rw [hprefixed.1] at hfits
      omega
  · rintro ⟨hbefore, hrefilled⟩
    rw [Prefixed, collect_snoc, toList_stored_push, spoken_snoc]
    split_ifs with hsame
    · by_cases hcut : Cut other deltas
      · have hnone : fitting (collect deltas).remaining delta.toList = [] := by
          cases hdelta : delta.toList with
          | nil => rfl
          | cons char rest =>
              apply fitting_eq_nil_of_lt
              by_contra hfits
              exact hrefilled ⟨hsame, hcut, char, by simp [hdelta], by omega⟩
        rw [hnone, List.append_nil]
        exact hbefore.trans (List.prefix_append _ _)
      · rw [cut_iff] at hcut
        have hwhole := hbefore.eq_of_length_le (by omega)
        rw [hwhole, List.prefix_append_right_inj]
        exact prefix_fitting _ _
    · rw [List.append_nil, List.append_nil]
      exact hbefore

/-- What is stored of a message begins its text exactly if it has not been refilled. -/
theorem prefixed_iff : Prefixed messageId deltas ↔ ¬Refilled messageId deltas := by
  induction deltas using List.reverseRecOn with
  | nil =>
      constructor
      · rintro - ⟨before, delta, after, hsplit, -⟩
        exact absurd hsplit (by simp)
      · exact fun _ => List.prefix_rfl
  | append_singleton deltas delta ih => rw [prefixed_snoc, refilled_snoc, ih, not_or]

/-- All bytes of the deltas. -/
def spokenBytes (deltas : List ReasoningDelta) : Nat :=
  (deltas.map fun delta => String.utf8Len delta.2.toList).sum

/-- As long as all deltas fit, each takes just its bytes of the room. -/
theorem roomAfter_of_fits (hfits : spokenBytes deltas ≤ maxDurableAcpReasoningBytes) :
    roomAfter maxDurableAcpReasoningBytes deltas =
      maxDurableAcpReasoningBytes - spokenBytes deltas := by
  induction deltas using List.reverseRecOn with
  | nil => rfl
  | append_singleton deltas delta ih =>
      have hsum : spokenBytes (deltas ++ [delta]) =
          spokenBytes deltas + String.utf8Len delta.2.toList := by
        simp [spokenBytes]
      rw [hsum] at hfits ⊢
      rw [roomAfter_snoc, ih (by omega), fitting_of_le (by omega), Nat.sub_add_eq]

theorem stored_of_fits (hfits : spokenBytes deltas ≤ maxDurableAcpReasoningBytes)
    (messageId : Option String) :
    ((collect deltas).stored messageId).toList = spoken messageId deltas := by
  induction deltas using List.reverseRecOn with
  | nil => rfl
  | append_singleton deltas delta ih =>
      have hsum : spokenBytes (deltas ++ [delta]) =
          spokenBytes deltas + String.utf8Len delta.2.toList := by
        simp [spokenBytes]
      rw [hsum] at hfits
      have hroom := @roomAfter_of_fits deltas (by omega)
      rw [collect_snoc, toList_stored_push, spoken_snoc, ih (by omega), remaining_collect, hroom,
        fitting_of_le (by omega)]

/-- The stored text is within the limit, begins the text of each message, and is all of
it as long as all deltas fit. -/
structure Faithful (deltas : List ReasoningDelta) : Prop where
  within : (collect deltas).items.total String.utf8ByteSize ≤ maxDurableAcpReasoningBytes
  prefixed : ∀ messageId,
    ((collect deltas).stored messageId).toList <+: spoken messageId deltas
  whole : spokenBytes deltas ≤ maxDurableAcpReasoningBytes → ∀ messageId,
    ((collect deltas).stored messageId).toList = spoken messageId deltas

/-- The aggregate has no gap in a message exactly if no message goes on, with a
character that still fits, after one of its deltas has been cut. -/
theorem faithful_iff (deltas : List ReasoningDelta) :
    Faithful deltas ↔ ∀ messageId, ¬Refilled messageId deltas := by
  have hsized := sized_collect deltas
  constructor
  · intro hfaithful messageId
    exact prefixed_iff.mp (hfaithful.prefixed messageId)
  · intro hrefilled
    exact
      { within := hsized.total.trans_le hsized.within
        prefixed := fun messageId => prefixed_iff.mpr (hrefilled messageId)
        whole := stored_of_fits }

theorem utf8Len_replicate (count : Nat) : String.utf8Len (List.replicate count 'a') = count := by
  induction count with
  | zero => rfl
  | succ count ih =>
      rw [List.replicate_succ, String.utf8Len_cons, ih]
      rfl

/-- One byte is left, the next character of the message has two and the one after it
has one: it is stored without the one before it. -/
theorem gap_refilled : ¬Faithful
    [(none, String.ofList (List.replicate 65535 'a')), (none, "é"), (none, "b")] := by
  intro hfaithful
  have hfull : roomAfter maxDurableAcpReasoningBytes
      [(none, String.ofList (List.replicate 65535 'a'))] = 1 := by
    rw [roomAfter_of_fits]
    all_goals simp only [spokenBytes, List.map_cons, List.map_nil, List.sum_cons, List.sum_nil,
      String.toList_ofList, utf8Len_replicate]
    all_goals decide
  have hcut : roomAfter maxDurableAcpReasoningBytes
      ([(none, String.ofList (List.replicate 65535 'a'))] ++ [(none, "é")]) = 1 := by
    rw [roomAfter_snoc, hfull]
    decide
  apply prefixed_iff.mp (hfaithful.prefixed none)
  have hbytes : 1 < String.utf8Len "é".toList := by decide
  exact ⟨_, (none, "b"), [], rfl, rfl, ⟨_, (none, "é"), [], rfl, rfl, hfull.trans_lt hbytes⟩,
    'b', by decide, by rw [hcut]; decide⟩

end AcpReasoningAggregate

end Mews
