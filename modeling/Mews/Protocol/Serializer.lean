import Mathlib.Data.String.Basic
import Mathlib.Tactic.IntervalCases
import Mews.Protocol.Encoding

/-!
# The text of a JSON value

What `Value::to_string` writes, without blanks and with the shortest escapes.  Its
length in bytes is the one that the limits on pages and items are about.
-/

namespace Mews.Protocol

/-- A character inside a JSON string. -/
def escapeChar (char : Char) : List Char :=
  if char = '"' ∨ char = '\\' then ['\\', char]
  else if char.toNat = 8 then ['\\', 'b']
  else if char.toNat = 9 then ['\\', 't']
  else if char.toNat = 10 then ['\\', 'n']
  else if char.toNat = 12 then ['\\', 'f']
  else if char.toNat = 13 then ['\\', 'r']
  else if char.toNat < 0x20 then
    ['\\', 'u', '0', '0', (char.toNat / 16).digitChar, (char.toNat % 16).digitChar]
  else [char]

def quotedChars (text : String) : List Char := '"' :: text.toList.flatMap escapeChar ++ ['"']

namespace Value

mutual

def chars : Value → List Char
  | .null => "null".toList
  | .bool true => "true".toList
  | .bool false => "false".toList
  | .number literal => literal.toList
  | .string text => quotedChars text
  | .array items => '[' :: (itemsChars items).tail ++ [']']
  | .object members => '{' :: (membersChars members).tail ++ ['}']

/-- The items with a comma before each of them. -/
def itemsChars : List Value → List Char
  | [] => []
  | item :: items => ',' :: chars item ++ itemsChars items

def membersChars : List (String × Value) → List Char
  | [] => []
  | (key, value) :: members => ',' :: quotedChars key ++ ':' :: chars value ++ membersChars members

end

/-- `Value::to_string`. -/
def toText (value : Value) : String := String.ofList value.chars

end Value

theorem utf8Size_digitChar {digit : Nat} (hdigit : digit < 16) : digit.digitChar.utf8Size = 1 := by
  interval_cases digit <;> rfl

theorem utf8Len_escapeChar (char : Char) : String.utf8Len (escapeChar char) = charBytes char := by
  rw [escapeChar, charBytes]
  by_cases hquote : char = '"' ∨ char = '\\'
  · rw [if_pos hquote, if_pos (by tauto)]
    rcases hquote with rfl | rfl
    · rfl
    · rfl
  · rw [if_neg hquote]
    by_cases hshort : char.toNat ∈ [8, 9, 10, 12, 13]
    · rw [if_pos (Or.inr (Or.inr hshort))]
      simp only [List.mem_cons, List.not_mem_nil, or_false] at hshort
      rcases hshort with heq | heq | heq | heq | heq <;> rw [heq] <;> rfl
    · have hplain : ¬ (char = '"' ∨ char = '\\' ∨ char.toNat ∈ [8, 9, 10, 12, 13]) := by
        rw [← or_assoc]
        exact not_or.mpr ⟨hquote, hshort⟩
      rw [if_neg hplain]
      simp only [List.mem_cons, List.not_mem_nil, or_false, not_or] at hshort
      obtain ⟨hbell, htab, hline, hfeed, hreturn⟩ := hshort
      rw [if_neg hbell, if_neg htab, if_neg hline, if_neg hfeed, if_neg hreturn]
      split_ifs with hcontrol
      · have hones : (char.toNat % 16).digitChar.utf8Size = 1 :=
          utf8Size_digitChar (Nat.mod_lt _ (by omega))
        have htens : (char.toNat / 16).digitChar.utf8Size = 1 := utf8Size_digitChar (by omega)
        simp only [String.utf8Len_cons, String.utf8Len_nil, hones, htens]
        rfl
      · simp

theorem utf8Len_quotedChars (text : String) :
    String.utf8Len (quotedChars text) = textBytes text := by
  have hchars (chars : List Char) :
      String.utf8Len (chars.flatMap escapeChar) = (chars.map charBytes).sum := by
    induction chars with
    | nil => rfl
    | cons char chars ih =>
        rw [List.flatMap_cons, String.utf8Len_append, ih, utf8Len_escapeChar, List.map_cons,
          List.sum_cons]
  have hquote : '"'.utf8Size = 1 := rfl
  rw [quotedChars, textBytes, escapedBytes, ← hchars]
  simp [hquote]

namespace Value

/-- Without the first comma. -/
theorem utf8Len_tail_itemsChars (items : List Value) :
    String.utf8Len (itemsChars items).tail = String.utf8Len (itemsChars items) - 1 := by
  cases items with
  | nil => rfl
  | cons item items =>
      have hcomma : ','.utf8Size = 1 := rfl
      simp [itemsChars, hcomma]

theorem utf8Len_tail_membersChars (members : List (String × Value)) :
    String.utf8Len (membersChars members).tail = String.utf8Len (membersChars members) - 1 := by
  cases members with
  | nil => rfl
  | cons member members =>
      have hcomma : ','.utf8Size = 1 := rfl
      simp [membersChars, hcomma]

mutual

theorem utf8Len_chars : ∀ value : Value, String.utf8Len value.chars = value.bytes
  | .null => rfl
  | .bool true => rfl
  | .bool false => rfl
  | .number literal => by rw [chars, bytes, String.utf8Len_toList]
  | .string text => by rw [chars, bytes, utf8Len_quotedChars]
  | .array items => by
      have hopen : '['.utf8Size = 1 := rfl
      have hclose : ']'.utf8Size = 1 := rfl
      have hitems := utf8Len_itemsChars items
      rw [chars, bytes, ← hitems]
      simp only [String.utf8Len_cons, String.utf8Len_append, String.utf8Len_nil,
        utf8Len_tail_itemsChars, hopen, hclose, List.cons_append]
      omega
  | .object members => by
      have hopen : '\x7b'.utf8Size = 1 := rfl
      have hclose : '\x7d'.utf8Size = 1 := rfl
      have hmembers := utf8Len_membersChars members
      rw [chars, bytes, ← hmembers]
      simp only [String.utf8Len_cons, String.utf8Len_append, String.utf8Len_nil,
        utf8Len_tail_membersChars, hopen, hclose, List.cons_append]
      omega

theorem utf8Len_itemsChars :
    ∀ items : List Value, String.utf8Len (itemsChars items) = itemsBytes items
  | [] => rfl
  | item :: items => by
      have hcomma : ','.utf8Size = 1 := rfl
      rw [itemsChars, itemsBytes, ← utf8Len_chars item, ← utf8Len_itemsChars items]
      simp only [String.utf8Len_cons, String.utf8Len_append, hcomma, List.cons_append]
      omega

theorem utf8Len_membersChars :
    ∀ members : List (String × Value),
      String.utf8Len (membersChars members) = membersBytes members
  | [] => rfl
  | (key, value) :: members => by
      have hcomma : ','.utf8Size = 1 := rfl
      have hcolon : ':'.utf8Size = 1 := rfl
      rw [membersChars, membersBytes, ← utf8Len_chars value, ← utf8Len_membersChars members,
        ← utf8Len_quotedChars]
      simp only [String.utf8Len_cons, String.utf8Len_append, hcomma, hcolon, List.cons_append]
      omega

end

/-- The text is as long as the limits reckon. -/
theorem utf8ByteSize_toText (value : Value) : value.toText.utf8ByteSize = value.bytes := by
  rw [toText, String.utf8ByteSize_ofList, utf8Len_chars]

end Value

end Mews.Protocol
