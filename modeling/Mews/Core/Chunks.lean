import Mathlib.Data.List.Basic
import Mathlib.Tactic.Ring

/-!
# Cutting a sequence into chunks

A sequence is cut into chunks of a fixed size, the last of which may be shorter.
The empty sequence is one empty chunk, so that every sequence has a last chunk.
-/

namespace Mews.Chunks

variable {α : Type*} {size index : ℕ} {items : List α}

/-- `usize::div_ceil`. -/
def divCeil (total size : ℕ) : ℕ := if 0 < total % size then total / size + 1 else total / size

def count (size length : ℕ) : ℕ := max (divCeil length size) 1

def chunk (size index : ℕ) (items : List α) : List α := (items.drop (index * size)).take size

theorem divCeil_mul (hsize : 0 < size) (index : ℕ) : divCeil (index * size) size = index := by
  rw [divCeil, Nat.mul_mod_left, if_neg (Nat.lt_irrefl 0), Nat.mul_div_cancel index hsize]

theorem divCeil_le_iff (hsize : 0 < size) {length bound : ℕ} :
    divCeil length size ≤ bound ↔ length ≤ bound * size := by
  have hsplit : size * (length / size) + length % size = length := Nat.div_add_mod length size
  have hmod : length % size < size := Nat.mod_lt length hsize
  rw [divCeil]
  split_ifs with hrest
  · rw [Nat.succ_le_iff, Nat.div_lt_iff_lt_mul hsize]
    constructor
    · exact Nat.le_of_lt
    · intro hle
      apply Nat.lt_of_le_of_ne hle
      rintro rfl
      rw [Nat.mul_mod_left] at hrest
      exact Nat.lt_irrefl 0 hrest
  · rw [Nat.div_le_iff_le_mul_add_pred hsize, Nat.mul_comm]
    constructor
    · intro hle
      have hdiv : length / size ≤ bound := by
        apply Nat.le_of_lt_succ
        rw [Nat.div_lt_iff_lt_mul hsize, Nat.succ_mul]
        omega
      calc
        length = length / size * size := by
          rw [Nat.mul_comm]
          omega
        _ ≤ bound * size := Nat.mul_le_mul_right size hdiv
    · omega

theorem count_le_iff (hsize : 0 < size) {length bound : ℕ} :
    count size length ≤ bound ↔ length ≤ bound * size ∧ 1 ≤ bound := by
  rw [count, max_le_iff, divCeil_le_iff hsize]

theorem count_pos (size length : ℕ) : 0 < count size length :=
  Nat.lt_of_lt_of_le Nat.one_pos (le_max_right _ _)

/-- A chunk that is not the first starts inside the sequence. -/
theorem mul_lt_of_lt_count (hsize : 0 < size) (hindex : index < count size items.length)
    (hpos : 0 < index) : index * size < items.length := by
  by_contra hle
  have hcount : count size items.length ≤ index :=
    (count_le_iff hsize).mpr ⟨Nat.le_of_not_lt hle, hpos⟩
  omega

theorem length_chunk_le (size index : ℕ) (items : List α) : (chunk size index items).length ≤ size := by
  rw [chunk, List.length_take]
  exact min_le_left _ _

theorem take_append_chunk (size index : ℕ) (items : List α) :
    items.take (index * size) ++ chunk size index items = items.take ((index + 1) * size) := by
  rw [chunk, Nat.add_mul, Nat.one_mul, List.take_add]

theorem length_take_of_lt_count (hsize : 0 < size) (hindex : index < count size items.length) :
    (items.take (index * size)).length = index * size := by
  rcases Nat.eq_zero_or_pos index with rfl | hpos
  · simp
  · rw [List.length_take]
    exact min_eq_left (mul_lt_of_lt_count hsize hindex hpos).le

theorem take_count (hsize : 0 < size) (hlast : index + 1 = count size items.length) :
    items.take ((index + 1) * size) = items := by
  apply List.take_of_length_le
  exact ((count_le_iff hsize).mp hlast.ge).1

theorem flatten_chunks (size bound : ℕ) (items : List α) :
    ((List.range bound).map fun index => chunk size index items).flatten =
      items.take (bound * size) := by
  induction bound with
  | zero => simp
  | succ bound ih =>
      rw [List.range_succ, List.map_append, List.flatten_append, ih, ← take_append_chunk]
      simp

/-- The chunks make up the sequence. -/
theorem flatten_chunks_divCeil (hsize : 0 < size) (items : List α) :
    ((List.range (divCeil items.length size)).map fun index => chunk size index items).flatten =
      items := by
  rw [flatten_chunks]
  exact List.take_of_length_le ((divCeil_le_iff hsize).mp (Nat.le_refl _))

end Mews.Chunks
