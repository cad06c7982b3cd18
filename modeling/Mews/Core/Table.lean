import Mathlib.Data.List.Nodup
import Mathlib.Data.List.Basic
import Mathlib.Data.List.Perm.Subperm

/-!
# Tables as row lists

A table is the list of its rows in insertion order.  `updateWhere` is the
`UPDATE … WHERE` statement and `Unique` a uniqueness constraint on a column;
the lemmas say how updates and insertions act on membership, on the lookup by
a unique column, and on the constraint itself.
-/

namespace Mews.Table

variable {R K : Type}

/-- Changes exactly the rows that match. -/
def updateWhere (matched : R → Bool) (change : R → R) (rows : List R) : List R :=
  rows.map fun row => if matched row then change row else row

/-- The column holds no value twice. -/
def Unique (column : R → K) (rows : List R) : Prop :=
  (rows.map column).Nodup

section Update

variable {matched : R → Bool} {change : R → R} {rows : List R}

theorem mem_updateWhere {row : R} :
    row ∈ updateWhere matched change rows ↔
      ∃ old ∈ rows, (if matched old then change old else old) = row := by
  simp [updateWhere]

@[simp] theorem updateWhere_nil : updateWhere matched change [] = [] := rfl

theorem length_updateWhere : (updateWhere matched change rows).length = rows.length := by
  simp [updateWhere]

/-- A column the change leaves alone reads the same after the update. -/
theorem map_updateWhere {column : R → K} (hchange : ∀ row, column (change row) = column row) :
    (updateWhere matched change rows).map column = rows.map column := by
  rw [updateWhere, List.map_map]
  refine List.map_congr_left fun row _ => ?_
  by_cases hmatched : matched row <;> simp [hmatched, hchange]

theorem unique_updateWhere {column : R → K}
    (hchange : ∀ row, column (change row) = column row) :
    Unique column (updateWhere matched change rows) ↔ Unique column rows := by
  rw [Unique, map_updateWhere hchange, Unique]

theorem updateWhere_congr {change' : R → R}
    (hchange : ∀ row ∈ rows, matched row = true → change row = change' row) :
    updateWhere matched change rows = updateWhere matched change' rows := by
  apply List.map_congr_left
  intro row hrow
  by_cases hmatched : matched row = true
  · rw [if_pos hmatched, if_pos hmatched, hchange row hrow hmatched]
  · rw [if_neg hmatched, if_neg hmatched]

/-- An update that matches nothing changes nothing. -/
theorem updateWhere_eq_self (hnone : ∀ row ∈ rows, matched row = false) :
    updateWhere matched change rows = rows := by
  rw [updateWhere]
  conv_rhs => rw [← List.map_id rows]
  refine List.map_congr_left fun row hrow => ?_
  simp [hnone row hrow]

theorem filter_updateWhere {keep : R → Bool} (hchange : ∀ row, keep (change row) = keep row) :
    (updateWhere matched change rows).filter keep =
      updateWhere matched change (rows.filter keep) := by
  induction rows with
  | nil => rfl
  | cons row rows ih =>
      have hkeep : keep (if matched row then change row else row) = keep row := by
        by_cases hmatched : matched row <;> simp [hmatched, hchange]
      simp only [updateWhere] at ih ⊢
      by_cases hrow : keep row <;> simp [hkeep, hrow, ih]

/-- A row looked up by what the update leaves alone is found updated. -/
theorem find?_updateWhere {found : R → Bool} (hchange : ∀ row, found (change row) = found row) :
    (updateWhere matched change rows).find? found =
      (rows.find? found).map fun row => if matched row then change row else row := by
  rw [updateWhere, List.find?_map]
  congr 2
  funext row
  by_cases hmatched : matched row <;> simp [hmatched, hchange]

end Update

section Unique

variable {column : R → K} {rows : List R}

@[simp] theorem unique_nil : Unique column ([] : List R) := List.nodup_nil

theorem unique_append_singleton {row : R} :
    Unique column (rows ++ [row]) ↔
      Unique column rows ∧ ∀ other ∈ rows, column other ≠ column row := by
  simp only [Unique, List.map_append, List.map_cons, List.map_nil, List.nodup_append,
    List.mem_map, List.mem_singleton]
  constructor
  · rintro ⟨hrows, -, hnew⟩
    exact ⟨hrows, fun other hother heq => hnew _ ⟨other, hother, rfl⟩ _ rfl heq⟩
  · rintro ⟨hrows, hnew⟩
    refine ⟨hrows, by simp, ?_⟩
    rintro _ ⟨other, hother, rfl⟩ _ rfl
    exact hnew other hother

theorem Unique.nodup (hunique : Unique column rows) : rows.Nodup :=
  List.Nodup.of_map column hunique

/-- Two rows of a table agree as soon as they agree on a unique column. -/
theorem Unique.eq_of_mem (hunique : Unique column rows) {left right : R}
    (hleft : left ∈ rows) (hright : right ∈ rows) (hcolumn : column left = column right) :
    left = right :=
  List.inj_on_of_nodup_map hunique hleft hright hcolumn

/-- A condition that only one row of a key can meet is met once. -/
theorem Unique.countP_eq_one (hunique : Unique column rows) {row : R} {matched : R → Bool}
    (hrow : row ∈ rows) (hmatched : matched row = true)
    (honly : ∀ other ∈ rows, matched other = true → column other = column row) :
    rows.countP matched = 1 := by
  have hpos : 0 < rows.countP matched := List.countP_pos_iff.mpr ⟨row, hrow, hmatched⟩
  have hsubset : rows.filter matched ⊆ [row] := by
    intro other hother
    obtain ⟨hmem, hother⟩ := List.mem_filter.mp hother
    rw [List.mem_singleton]
    exact hunique.eq_of_mem hmem hrow (honly other hmem hother)
  have hnodup : (rows.filter matched).Nodup := hunique.nodup.filter matched
  have hle := (List.subperm_of_subset hnodup hsubset).length_le
  rw [← List.countP_eq_length_filter, List.length_singleton] at hle
  omega

theorem Unique.filter (hunique : Unique column rows) (keep : R → Bool) :
    Unique column (rows.filter keep) :=
  hunique.sublist (List.filter_sublist.map column)

variable [DecidableEq K]

/-- Looking a row up by a unique column finds that row. -/
theorem Unique.find?_eq_some (hunique : Unique column rows) {row : R} (hrow : row ∈ rows) :
    rows.find? (fun other => column other = column row) = some row := by
  cases hfind : rows.find? (fun other => column other = column row) with
  | none =>
      have hmissing := List.find?_eq_none.mp hfind row hrow
      simp at hmissing
  | some found =>
      have hfound : column found = column row := by
        simpa using List.find?_some hfind
      have hmem := List.mem_of_find?_eq_some hfind
      rw [hunique.eq_of_mem hmem hrow hfound]

end Unique

end Mews.Table
