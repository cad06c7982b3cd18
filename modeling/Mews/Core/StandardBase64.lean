import Mews.Core.Texts

/-!
# Standard Base64

The standard alphabet differs from the URL-safe one in its last two symbols.
-/

namespace Mews.Base64

/-- The symbol in the other alphabet. -/
def otherSymbol : Char → Char
  | '-' => '+'
  | '_' => '/'
  | '+' => '-'
  | '/' => '_'
  | symbol => symbol

/-- `STANDARD_NO_PAD.encode`. -/
def encodeStandard (content : List UInt8) : String :=
  String.ofList ((symbols content).map otherSymbol)

/-- `STANDARD_NO_PAD.decode`. -/
def decodeStandard (text : String) : Option (List UInt8) := bytes (text.toList.map otherSymbol)

theorem otherSymbol_otherSymbol {symbol : Char} (hmem : symbol ∈ alphabet) :
    otherSymbol (otherSymbol symbol) = symbol := by
  have hall : alphabet.all (fun symbol => otherSymbol (otherSymbol symbol) = symbol) = true := by
    decide
  exact of_decide_eq_true (List.all_eq_true.mp hall symbol hmem)

theorem decodeStandard_encodeStandard (content : List UInt8) :
    decodeStandard (encodeStandard content) = some content := by
  have hsymbols : ((symbols content).map otherSymbol).map otherSymbol = symbols content :=
    calc
      ((symbols content).map otherSymbol).map otherSymbol
          = (symbols content).map (otherSymbol ∘ otherSymbol) := List.map_map
      _ = (symbols content).map id := by
          apply List.map_congr_left
          intro symbol hmem
          exact otherSymbol_otherSymbol (mem_alphabet_of_mem_symbols hmem)
      _ = symbols content := List.map_id _
  rw [decodeStandard, encodeStandard, String.toList_ofList, hsymbols, bytes_symbols]

/-- Four symbols stand for three bytes. -/
theorem length_symbols_le (content : List UInt8) :
    3 * (symbols content).length ≤ 4 * content.length + 2 := by
  fun_induction symbols content with
  | case1 => exact Nat.zero_le _
  | case2 first => exact Nat.le_refl _
  | case3 first second => exact Nat.le_succ _
  | case4 first second third rest ih =>
      simp only [List.length_cons]
      omega

end Mews.Base64
