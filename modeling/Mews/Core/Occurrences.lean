import Mathlib.Data.List.Infix

/-!
# Where a pattern occurs

The first place of a list from which it goes on in a given way, and the places at which a
pattern stands.
-/

namespace Mews.Occurrences

variable {α : Type*} {test : List α → Bool} {items : List α} {place : ℕ}

/-- The first place from which the rest of the list passes the test. -/
def firstPlace (test : List α → Bool) : List α → Option ℕ
  | [] => none
  | item :: rest =>
      if test (item :: rest) then some 0 else (firstPlace test rest).map (· + 1)

theorem firstPlace_eq_none_iff :
    firstPlace test items = none ↔ ∀ place < items.length, test (items.drop place) = false := by
  induction items with
  | nil => exact iff_of_true rfl fun place hplace => absurd hplace (Nat.not_lt_zero place)
  | cons item rest ih =>
      rw [firstPlace]
      by_cases hfirst : test (item :: rest) = true
      · rw [if_pos hfirst]
        apply iff_of_false (Option.some_ne_none 0)
        intro hnone
        have hnow := hnone 0 (Nat.succ_pos _)
        rw [List.drop_zero, hfirst] at hnow
        exact Bool.noConfusion hnow
      · rw [if_neg hfirst, Option.map_eq_none_iff, ih]
        constructor
        · intro hlater place hplace
          cases place with
          | zero => exact eq_false_of_ne_true hfirst
          | succ place => exact hlater place (Nat.lt_of_succ_lt_succ hplace)
        · intro hnone place hplace
          exact hnone (place + 1) (Nat.succ_lt_succ hplace)

theorem firstPlace_eq_some_iff :
    firstPlace test items = some place ↔
      place < items.length ∧ test (items.drop place) = true ∧
        ∀ earlier < place, test (items.drop earlier) = false := by
  induction items generalizing place with
  | nil =>
      apply iff_of_false (Option.some_ne_none place).symm
      exact fun h => absurd h.1 (Nat.not_lt_zero _)
  | cons item rest ih =>
      rw [firstPlace]
      by_cases hfirst : test (item :: rest) = true
      · rw [if_pos hfirst, Option.some_inj]
        constructor
        · rintro rfl
          exact ⟨Nat.succ_pos _, hfirst, fun earlier hearlier =>
            absurd hearlier (Nat.not_lt_zero earlier)⟩
        · rintro ⟨-, -, hnone⟩
          by_contra hplace
          have hnow := hnone 0 (Nat.pos_of_ne_zero (Ne.symm hplace))
          rw [List.drop_zero, hfirst] at hnow
          exact Bool.noConfusion hnow
      · rw [if_neg hfirst, Option.map_eq_some_iff]
        constructor
        · rintro ⟨place, hplace, rfl⟩
          obtain ⟨hlength, htest, hnone⟩ := ih.mp hplace
          refine ⟨Nat.succ_lt_succ hlength, htest, fun earlier hearlier => ?_⟩
          cases earlier with
          | zero => exact eq_false_of_ne_true hfirst
          | succ earlier => exact hnone earlier (Nat.lt_of_succ_lt_succ hearlier)
        · rintro ⟨hlength, htest, hnone⟩
          cases place with
          | zero => exact absurd htest hfirst
          | succ place =>
              exact ⟨place, ih.mpr ⟨Nat.lt_of_succ_lt_succ hlength, htest, fun earlier hearlier =>
                hnone (earlier + 1) (Nat.succ_lt_succ hearlier)⟩, rfl⟩

/-! ## Patterns -/

variable {pattern more : List α}

/-- The pattern stands at the place. -/
def StandsAt (pattern items : List α) (place : ℕ) : Prop := pattern <+: items.drop place

theorem StandsAt.getElem? (hstands : StandsAt pattern items place) {index : ℕ} {item : α}
    (hitem : pattern[index]? = some item) : items[place + index]? = some item := by
  obtain ⟨hindex, rfl⟩ := List.getElem?_eq_some_iff.mp hitem
  rw [← List.getElem?_drop]
  exact List.prefix_iff_getElem?.mp hstands index hindex

theorem StandsAt.length_le (hstands : StandsAt pattern items place) (hpattern : pattern ≠ []) :
    place + pattern.length ≤ items.length := by
  have hlength := List.IsPrefix.length_le hstands
  have hpositive := List.length_pos_iff.mpr hpattern
  rw [List.length_drop] at hlength
  omega

theorem StandsAt.append (hstands : StandsAt pattern items place) (more : List α) :
    StandsAt pattern (items ++ more) place := by
  rw [StandsAt, List.drop_append]
  exact hstands.trans (List.prefix_append _ _)

/-- What stands within the first part of a list stands in that part. -/
theorem StandsAt.of_append (hstands : StandsAt pattern (items ++ more) place)
    (hwithin : place + pattern.length ≤ items.length) : StandsAt pattern items place := by
  rw [StandsAt, List.drop_append_of_le_length (by omega)] at hstands
  exact List.prefix_of_prefix_length_le hstands (List.prefix_append _ _) (by
    rw [List.length_drop]
    omega)

theorem standsAt_drop {dropped : ℕ} :
    StandsAt pattern (items.drop dropped) place ↔ StandsAt pattern items (dropped + place) := by
  rw [StandsAt, StandsAt, List.drop_drop]

variable [DecidableEq α]

/-- The first place at which the pattern stands. -/
def position (pattern items : List α) : Option ℕ := firstPlace pattern.isPrefixOf items

theorem position_eq_none_iff (hpattern : pattern ≠ []) :
    position pattern items = none ↔ ∀ place, ¬StandsAt pattern items place := by
  rw [position, firstPlace_eq_none_iff]
  constructor
  · intro hnone place hstands
    have hlength := hstands.length_le hpattern
    have hpositive := List.length_pos_iff.mpr hpattern
    have hnow := hnone place (by omega)
    rw [List.isPrefixOf_iff_prefix.mpr hstands] at hnow
    exact Bool.noConfusion hnow
  · intro hnone place _
    apply eq_false_of_ne_true
    intro hstands
    exact hnone place (List.isPrefixOf_iff_prefix.mp hstands)

theorem position_eq_some_iff (hpattern : pattern ≠ []) :
    position pattern items = some place ↔
      StandsAt pattern items place ∧ ∀ earlier < place, ¬StandsAt pattern items earlier := by
  rw [position, firstPlace_eq_some_iff]
  constructor
  · rintro ⟨-, htest, hnone⟩
    refine ⟨List.isPrefixOf_iff_prefix.mp htest, fun earlier hearlier hstands => ?_⟩
    have hnow := hnone earlier hearlier
    rw [List.isPrefixOf_iff_prefix.mpr hstands] at hnow
    exact Bool.noConfusion hnow
  · rintro ⟨hstands, hnone⟩
    have hlength := hstands.length_le hpattern
    have hpositive := List.length_pos_iff.mpr hpattern
    refine ⟨by omega, List.isPrefixOf_iff_prefix.mpr hstands, fun earlier hearlier => ?_⟩
    apply eq_false_of_ne_true
    intro htest
    exact hnone earlier hearlier (List.isPrefixOf_iff_prefix.mp htest)

end Mews.Occurrences
