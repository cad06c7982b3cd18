import Mathlib.Data.List.Basic
import Mathlib.Tactic.Ring

/-!
# Texts for signatures

What is signed is one sequence of bytes: parts with a separator between them, some
of them byte strings in unpadded URL-safe Base64.  Such a sequence determines its
parts when none of them but the last has the separator in it.
-/

namespace Mews

/-! ## Separated parts -/

namespace Separated

variable {α : Type*} {separator : α} {left left' right right' : List α}

/-- The parts with `separator` between them. -/
def join (separator : α) : List (List α) → List α
  | [] => []
  | [part] => part
  | part :: next :: rest => part ++ separator :: join separator (next :: rest)

theorem append_cons_inj (hleft : separator ∉ left) (hleft' : separator ∉ left') :
    left ++ separator :: right = left' ++ separator :: right' ↔ left = left' ∧ right = right' := by
  constructor
  · intro heq
    induction left generalizing left' with
    | nil =>
        cases left' with
        | nil => exact ⟨rfl, (List.cons.inj heq).2⟩
        | cons head rest =>
            have hhead : separator = head := (List.cons.inj heq).1
            exact absurd (hhead ▸ List.mem_cons_self) hleft'
    | cons head rest ih =>
        cases left' with
        | nil =>
            have hhead : head = separator := (List.cons.inj heq).1
            exact absurd (hhead ▸ List.mem_cons_self) hleft
        | cons head' rest' =>
            obtain ⟨hhead, hrest⟩ := List.cons.inj heq
            have hparts := ih (fun hmem => hleft (List.mem_cons_of_mem _ hmem))
              (fun hmem => hleft' (List.mem_cons_of_mem _ hmem)) hrest
            exact ⟨by rw [hhead, hparts.1], hparts.2⟩
  · rintro ⟨rfl, rfl⟩
    rfl

theorem join_cons_inj {part next part' next' : List α} {rest rest' : List (List α)}
    (hpart : separator ∉ part) (hpart' : separator ∉ part') :
    join separator (part :: next :: rest) = join separator (part' :: next' :: rest') ↔
      part = part' ∧ join separator (next :: rest) = join separator (next' :: rest') :=
  append_cons_inj hpart hpart'

/-- The parts before the last do not have the separator in them. -/
def Parts (separator : α) : List (List α) → Prop
  | [] => True
  | [_] => True
  | part :: next :: rest => separator ∉ part ∧ Parts separator (next :: rest)

/-- A text determines its parts, when their number is known. -/
theorem eq_of_join_eq {parts parts' : List (List α)}
    (heq : join separator parts = join separator parts') (hlength : parts.length = parts'.length)
    (hparts : Parts separator parts) (hparts' : Parts separator parts') : parts = parts' := by
  induction parts generalizing parts' with
  | nil =>
      cases parts' with
      | nil => rfl
      | cons part rest => simp at hlength
  | cons part rest ih =>
      cases parts' with
      | nil => simp at hlength
      | cons part' rest' =>
          cases rest with
          | nil =>
              cases rest' with
              | nil => exact congrArg (fun part => [part]) heq
              | cons next rest' => simp at hlength
          | cons next rest =>
              cases rest' with
              | nil => simp at hlength
              | cons next' rest' =>
                  obtain ⟨hpart, hrest⟩ := (join_cons_inj hparts.1 hparts'.1).mp heq
                  rw [hpart, ih hrest (Nat.succ.inj hlength) hparts.2 hparts'.2]

end Separated

/-! ## Texts as bytes -/

namespace Utf8

/-- The ranges of the bytes that follow a first byte. -/
def followers (first : UInt8) : Option (List (UInt8 × UInt8)) :=
  if first < 0x80 then some []
  else if 0xC2 ≤ first ∧ first ≤ 0xDF then some [(0x80, 0xBF)]
  else if first = 0xE0 then some [(0xA0, 0xBF), (0x80, 0xBF)]
  else if first = 0xED then some [(0x80, 0x9F), (0x80, 0xBF)]
  else if 0xE1 ≤ first ∧ first ≤ 0xEF then some [(0x80, 0xBF), (0x80, 0xBF)]
  else if first = 0xF0 then some [(0x90, 0xBF), (0x80, 0xBF), (0x80, 0xBF)]
  else if 0xF1 ≤ first ∧ first ≤ 0xF3 then some [(0x80, 0xBF), (0x80, 0xBF), (0x80, 0xBF)]
  else if first = 0xF4 then some [(0x80, 0x8F), (0x80, 0xBF), (0x80, 0xBF)]
  else none

/-- The bits of a first byte with so many followers. -/
def leading (first : UInt8) (count : Nat) : Nat :=
  if count = 0 then first.toNat else first.toNat % 2 ^ (6 - count)

def replacement : Char := Char.ofNat 0xFFFD

/-- The characters of the bytes; `pending` is the code so far of a character that
still expects bytes in the given ranges. -/
def lossyChars : Option (Nat × List (UInt8 × UInt8)) → List UInt8 → List Char
  | none, [] => []
  | some _, [] => [replacement]
  | pending, byte :: rest =>
      let restart (before : List Char) : List Char :=
        match followers byte with
        | none => before ++ replacement :: lossyChars none rest
        | some [] => before ++ Char.ofNat byte.toNat :: lossyChars none rest
        | some ranges =>
            before ++ lossyChars (some (leading byte ranges.length, ranges)) rest
      match pending with
      | some (code, (low, high) :: ranges) =>
          if low ≤ byte ∧ byte ≤ high then
            let code := code * 64 + byte.toNat % 64
            if ranges = [] then Char.ofNat code :: lossyChars none rest
            else lossyChars (some (code, ranges)) rest
          else restart [replacement]
      | _ => restart []

end Utf8

/-- `String::from_utf8_lossy`: what is no prefix of a character is replaced. -/
def fromUtf8Lossy (content : List UInt8) : String :=
  String.ofList (Utf8.lossyChars none content)

/-- `String::from_utf8`. -/
def fromUtf8 (content : List UInt8) : Option String := String.fromUTF8? content.toByteArray

/-- `str::as_bytes`. -/
def bytesOf (text : String) : List UInt8 := text.toByteArray.data.toList

theorem bytesOf_injective : Function.Injective bytesOf := by
  intro text text' heq
  apply String.toByteArray_inj.mp
  apply ByteArray.ext
  exact Array.toList_inj.mp heq

@[simp]
theorem bytesOf_append (text text' : String) :
    bytesOf (text ++ text') = bytesOf text ++ bytesOf text' := by
  simp [bytesOf]

theorem fromUtf8_bytesOf (text : String) : fromUtf8 (bytesOf text) = some text := by
  have hbytes : (bytesOf text).toByteArray = text.toByteArray := by
    apply ByteArray.ext
    rw [List.data_toByteArray, bytesOf]
  rw [fromUtf8, hbytes, String.fromUTF8?, dif_pos text.isValidUTF8]
  rfl

theorem bytesOf_ofList (chars : List Char) :
    bytesOf (String.ofList chars) = chars.flatMap String.utf8EncodeChar := by
  simp [bytesOf, List.utf8Encode]

namespace Base64

def alphabet : List Char :=
  ['A', 'B', 'C', 'D', 'E', 'F', 'G', 'H', 'I', 'J', 'K', 'L', 'M', 'N', 'O', 'P',
    'Q', 'R', 'S', 'T', 'U', 'V', 'W', 'X', 'Y', 'Z', 'a', 'b', 'c', 'd', 'e', 'f',
    'g', 'h', 'i', 'j', 'k', 'l', 'm', 'n', 'o', 'p', 'q', 'r', 's', 't', 'u', 'v',
    'w', 'x', 'y', 'z', '0', '1', '2', '3', '4', '5', '6', '7', '8', '9', '-', '_']

def symbol (sextet : Nat) : Char := alphabet.getD sextet 'A'

def sextet (symbol : Char) : Option Nat := alphabet.idxOf? symbol

def symbols : List UInt8 → List Char
  | [] => []
  | [first] => [symbol (first.toNat / 4), symbol (first.toNat % 4 * 16)]
  | [first, second] =>
      [symbol (first.toNat / 4), symbol (first.toNat % 4 * 16 + second.toNat / 16),
        symbol (second.toNat % 16 * 4)]
  | first :: second :: third :: rest =>
      symbol (first.toNat / 4) :: symbol (first.toNat % 4 * 16 + second.toNat / 16) ::
        symbol (second.toNat % 16 * 4 + third.toNat / 64) :: symbol (third.toNat % 64) ::
        symbols rest

/-- Bits that are left over must be zero. -/
def bytes : List Char → Option (List UInt8)
  | [] => some []
  | [_] => none
  | [a, b] => do
      let (a, b) := (← sextet a, ← sextet b)
      if b % 16 = 0 then some [UInt8.ofNat (a * 4 + b / 16)] else none
  | [a, b, c] => do
      let (a, b, c) := (← sextet a, ← sextet b, ← sextet c)
      if c % 4 = 0 then
        some [UInt8.ofNat (a * 4 + b / 16), UInt8.ofNat (b % 16 * 16 + c / 4)]
      else none
  | a :: b :: c :: d :: rest => do
      let (a, b, c, d) := (← sextet a, ← sextet b, ← sextet c, ← sextet d)
      let later ← bytes rest
      some (UInt8.ofNat (a * 4 + b / 16) :: UInt8.ofNat (b % 16 * 16 + c / 4) ::
        UInt8.ofNat (c % 4 * 64 + d) :: later)

/-- `URL_SAFE_NO_PAD.encode`. -/
def encode (content : List UInt8) : String := String.ofList (symbols content)

/-- `URL_SAFE_NO_PAD.decode`. -/
def decode (text : String) : Option (List UInt8) := bytes text.toList

theorem sextet_symbol {value : Nat} (hlt : value < 64) : sextet (symbol value) = some value := by
  have hall : ∀ value : Fin 64, sextet (symbol value) = some value.val := by decide
  exact hall ⟨value, hlt⟩

theorem ofNat_eq {byte : UInt8} {value : Nat} (heq : value = byte.toNat) :
    UInt8.ofNat value = byte := by
  rw [heq, UInt8.ofNat_toNat]

theorem bytes_symbols (content : List UInt8) : bytes (symbols content) = some content := by
  fun_induction symbols content with
  | case1 => rfl
  | case2 first =>
      have hfirst := first.toNat_lt
      have hbyte : UInt8.ofNat (first.toNat / 4 * 4 + first.toNat % 4 * 16 / 16) = first :=
        ofNat_eq (by omega)
      have hspare : first.toNat % 4 * 16 % 16 = 0 := Nat.mul_mod_left _ _
      rw [bytes, sextet_symbol (by omega), sextet_symbol (by omega)]
      simp only [Option.bind_eq_bind, Option.bind_some, hspare, if_true, hbyte]
  | case3 first second =>
      have hfirst := first.toNat_lt
      have hsecond := second.toNat_lt
      have hbyte : UInt8.ofNat (first.toNat / 4 * 4 +
          (first.toNat % 4 * 16 + second.toNat / 16) / 16) = first := ofNat_eq (by omega)
      have hnext : UInt8.ofNat ((first.toNat % 4 * 16 + second.toNat / 16) % 16 * 16 +
          second.toNat % 16 * 4 / 4) = second := ofNat_eq (by omega)
      have hspare : second.toNat % 16 * 4 % 4 = 0 := Nat.mul_mod_left _ _
      rw [bytes, sextet_symbol (by omega), sextet_symbol (by omega), sextet_symbol (by omega)]
      simp only [Option.bind_eq_bind, Option.bind_some, hspare, if_true, hbyte, hnext]
  | case4 first second third rest ih =>
      have hfirst := first.toNat_lt
      have hsecond := second.toNat_lt
      have hthird := third.toNat_lt
      have hbyte : UInt8.ofNat (first.toNat / 4 * 4 +
          (first.toNat % 4 * 16 + second.toNat / 16) / 16) = first := ofNat_eq (by omega)
      have hnext : UInt8.ofNat ((first.toNat % 4 * 16 + second.toNat / 16) % 16 * 16 +
          (second.toNat % 16 * 4 + third.toNat / 64) / 4) = second := ofNat_eq (by omega)
      have hlast : UInt8.ofNat ((second.toNat % 16 * 4 + third.toNat / 64) % 4 * 64 +
          third.toNat % 64) = third := ofNat_eq (by omega)
      rw [bytes, sextet_symbol (by omega), sextet_symbol (by omega), sextet_symbol (by omega),
        sextet_symbol (by omega), ih]
      simp only [Option.bind_eq_bind, Option.bind_some, hbyte, hnext, hlast]

theorem symbol_mem (value : Nat) : symbol value ∈ alphabet := by
  rw [symbol, List.getD_eq_getElem?_getD]
  cases hfound : alphabet[value]? with
  | none => decide
  | some char => exact List.mem_of_getElem? hfound

theorem mem_alphabet_of_mem_symbols {content : List UInt8} {char : Char}
    (hmem : char ∈ symbols content) : char ∈ alphabet := by
  fun_induction symbols content with
  | case1 => cases hmem
  | case2 first =>
      simp only [List.mem_cons, List.not_mem_nil, or_false] at hmem
      rcases hmem with rfl | rfl <;> exact symbol_mem _
  | case3 first second =>
      simp only [List.mem_cons, List.not_mem_nil, or_false] at hmem
      rcases hmem with rfl | rfl | rfl <;> exact symbol_mem _
  | case4 first second third rest ih =>
      simp only [List.mem_cons] at hmem
      rcases hmem with rfl | rfl | rfl | rfl | hmem
      · exact symbol_mem _
      · exact symbol_mem _
      · exact symbol_mem _
      · exact symbol_mem _
      · exact ih hmem

theorem zero_notMem_encode (content : List UInt8) : 0 ∉ bytesOf (encode content) := by
  have halphabet : alphabet.all (fun char => !(String.utf8EncodeChar char).contains 0) = true := by
    decide
  rw [encode, bytesOf_ofList, List.mem_flatMap]
  rintro ⟨char, hmem, hzero⟩
  have hchar := List.all_eq_true.mp halphabet char (mem_alphabet_of_mem_symbols hmem)
  rw [Bool.not_eq_true', List.contains_eq_mem, decide_eq_false_iff_not] at hchar
  exact hchar hzero

theorem decode_encode (content : List UInt8) : decode (encode content) = some content := by
  rw [decode, encode, String.toList_ofList, bytes_symbols]

theorem encode_injective : Function.Injective encode := by
  intro content content' heq
  have hdecode := decode_encode content
  rw [heq, decode_encode] at hdecode
  exact (Option.some.inj hdecode).symm

end Base64

/-! ## Numbers -/

theorem toString_injective {first second : ℕ} (hsame : toString first = toString second) :
    first = second := by
  have hdigits : Nat.toDigits 10 first = Nat.toDigits 10 second := by
    rw [← Nat.toList_repr, ← Nat.toList_repr]
    exact congrArg String.toList hsame
  calc
    first = Nat.ofDigitChars 10 (Nat.toDigits 10 first) 0 := Nat.ofDigitChars_ten_toDigits.symm
    _ = Nat.ofDigitChars 10 (Nat.toDigits 10 second) 0 := by rw [hdigits]
    _ = second := Nat.ofDigitChars_ten_toDigits

end Mews
