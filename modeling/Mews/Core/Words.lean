import Mathlib.Algebra.Group.Nat.Defs
import Mathlib.Data.List.TakeWhile
import Mathlib.Data.Nat.Notation

/-!
# Words and numbers in a text

White space is cut off a text, and a number is read back from what was written of it.
-/

namespace Mews

/-- `char::is_whitespace`, the Unicode `White_Space` property. -/
def isWhitespace (char : Char) : Bool :=
  char.toNat ∈ [0x20, 0x85, 0xA0, 0x1680, 0x2028, 0x2029, 0x202F, 0x205F, 0x3000] ||
    (9 ≤ char.toNat && char.toNat ≤ 13) || (0x2000 ≤ char.toNat && char.toNat ≤ 0x200A)

/-- `str::trim`. -/
def trimText (text : String) : String :=
  let begun := text.toList.dropWhile isWhitespace
  String.ofList (begun.reverse.dropWhile isWhitespace).reverse

/-- `str::parse::<usize>`. -/
def parseUsize (text : String) : Option ℕ :=
  let digits : List Char := match text.toList with
    | '+' :: digits => digits
    | digits => digits
  let value := digits.foldl (fun value digit => value * 10 + (digit.toNat - '0'.toNat)) 0
  if digits ≠ [] ∧ digits.all Char.isDigit ∧ value < 2 ^ 64 then some value else none

section Numbers

variable {char : Char} {chars : List Char} {number : ℕ}

theorem isWhitespace_of_isDigit (hdigit : char.isDigit = true) : isWhitespace char = false := by
  simp only [Char.isDigit, Bool.and_eq_true, decide_eq_true_eq] at hdigit
  obtain ⟨hlow, hhigh⟩ := hdigit
  have hlow : 48 ≤ char.toNat := hlow
  have hhigh : char.toNat ≤ 57 := hhigh
  simp only [isWhitespace, Bool.or_eq_false_iff, decide_eq_false_iff_not, List.mem_cons,
    List.not_mem_nil, Bool.and_eq_false_iff, or_false]
  refine ⟨⟨?_, ?_⟩, ?_⟩
  · omega
  · omega
  · omega

theorem dropWhile_eq_self (hchars : ∀ char ∈ chars, isWhitespace char = false) :
    chars.dropWhile isWhitespace = chars := by
  cases chars with
  | nil => rfl
  | cons char chars => simp [hchars char List.mem_cons_self]

theorem isDigit_of_mem_toString (hchar : char ∈ (toString number).toList) :
    char.isDigit = true := by
  rw [Nat.toString_eq_ofList_toDigits, String.toList_ofList] at hchar
  exact Nat.isDigit_of_mem_toDigits (by decide) (by decide) hchar

theorem trimText_toString (number : ℕ) : trimText (toString number) = toString number := by
  have hchars : ∀ char ∈ (toString number).toList, isWhitespace char = false := fun _ hchar =>
    isWhitespace_of_isDigit (isDigit_of_mem_toString hchar)
  have hreverse : ∀ char ∈ (toString number).toList.reverse, isWhitespace char = false :=
    fun char hchar => hchars char (List.mem_reverse.mp hchar)
  rw [trimText, dropWhile_eq_self hchars, dropWhile_eq_self hreverse, List.reverse_reverse,
    String.ofList_toList]

/-- A number is read back from its text. -/
theorem parseUsize_toString (hnumber : number < 2 ^ 64) :
    parseUsize (toString number) = some number := by
  have hdigits : (toString number).toList = Nat.toDigits 10 number := by
    rw [Nat.toString_eq_ofList_toDigits, String.toList_ofList]
  have hall : (Nat.toDigits 10 number).all Char.isDigit = true := by
    rw [List.all_eq_true]
    intro char hchar
    exact Nat.isDigit_of_mem_toDigits (by decide) (by decide) hchar
  have hvalue : (Nat.toDigits 10 number).foldl
      (fun value digit => value * 10 + (digit.toNat - '0'.toNat)) 0 = number := by
    have hread := Nat.ofDigitChars_ten_toDigits (n := number)
    rw [Nat.ofDigitChars_eq_foldl] at hread
    simpa only [Nat.mul_comm] using hread
  rw [parseUsize, hdigits]
  cases hchars : Nat.toDigits 10 number with
  | nil => exact absurd hchars Nat.toDigits_ne_nil
  | cons first rest =>
      have hfirst : first ≠ '+' := by
        rintro rfl
        have hplus := List.all_eq_true.mp hall '+' (hchars ▸ List.mem_cons_self)
        exact absurd hplus (by decide)
      rw [hchars] at hall hvalue
      split
      · rename_i heq
        exact absurd (List.cons.inj heq).1 hfirst
      · rw [hvalue, if_pos ⟨List.cons_ne_nil _ _, hall, hnumber⟩]

end Numbers

end Mews
