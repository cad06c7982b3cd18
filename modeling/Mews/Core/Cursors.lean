import Mathlib.Data.List.Infix
import Mews.Core.Chunks

/-!
# Pages that end where a search ends

The end of a page is searched for by halving an interval of counts.  What is found fits, also
where a larger count may fit again that a smaller one does not.  A reader who follows the
cursors from page to page reads a sequence from one place to its end.
-/

namespace Mews.Cursors

section Search

variable {E : Type*} {fits : ℕ → Except E Bool} {low high found : ℕ}

def middle (low high : ℕ) : ℕ := low + Chunks.divCeil (high - low) 2

theorem middle_bounds (hlt : low < high) : low < middle low high ∧ middle low high ≤ high := by
  rw [middle, Chunks.divCeil]
  split_ifs <;> omega

/-- The last count that was found to fit, `low` if there was none. -/
def search (fits : ℕ → Except E Bool) (low high : ℕ) : Except E ℕ :=
  if low < high then
    match fits (middle low high) with
    | .error error => .error error
    | .ok true => search fits (middle low high) high
    | .ok false => search fits low (middle low high - 1)
  else .ok low
termination_by high - low
decreasing_by all_goals
  have hmiddle : low < middle low high ∧ middle low high ≤ high := middle_bounds (by assumption)
  omega

/-- Where the search ends there is room, and if it ends at its beginning not even one more
fits. -/
theorem search_ok (hfound : search fits low high = .ok found) :
    low ≤ found ∧ found ≤ max low high ∧ (low < found → fits found = .ok true) ∧
      (found = low → low < high → fits (low + 1) = .ok false) := by
  fun_induction search fits low high with
  | case1 low high hlt error hfits => cases hfound
  | case2 low high hlt hfits ih =>
      obtain ⟨hle, hmax, hroom, -⟩ := ih hfound
      have hmiddle := middle_bounds hlt
      refine ⟨by omega, by omega, fun _ => ?_, fun heq => by omega⟩
      rcases hle.lt_or_eq with hless | heq
      · exact hroom hless
      · rwa [← heq]
  | case3 low high hlt hfits ih =>
      obtain ⟨hle, hmax, hroom, hnone⟩ := ih hfound
      have hmiddle := middle_bounds hlt
      refine ⟨hle, by omega, hroom, fun heq _ => ?_⟩
      by_cases hone : low < middle low high - 1
      · exact hnone heq hone
      · rwa [show low + 1 = middle low high by omega]
  | case4 low high hnot =>
      obtain rfl := Except.ok.inj hfound
      exact ⟨le_rfl, le_max_left _ _, fun hlt => absurd hlt (lt_irrefl _),
        fun _ hlt => absurd hlt hnot⟩

/-- Only the test fails. -/
theorem search_error {error : E} (hfailed : search fits low high = .error error) :
    ∃ count, low < count ∧ count ≤ high ∧ fits count = .error error := by
  fun_induction search fits low high with
  | case1 low high hlt error' hfits =>
      obtain rfl := Except.error.inj hfailed
      exact ⟨_, (middle_bounds hlt).1, (middle_bounds hlt).2, hfits⟩
  | case2 low high hlt hfits ih =>
      obtain ⟨count, hlow, hhigh, hcount⟩ := ih hfailed
      exact ⟨count, (middle_bounds hlt).1.trans hlow, hhigh, hcount⟩
  | case3 low high hlt hfits ih =>
      obtain ⟨count, hlow, hhigh, hcount⟩ := ih hfailed
      have hmiddle := (middle_bounds hlt).2
      exact ⟨count, hlow, by omega, hcount⟩
  | case4 low high hnot => cases hfailed

end Search

section Follow

variable {A C E L : Type*}

structure Page (A C : Type*) where
  items : List A
  next : Option C

/-- What a reader has read who asks for one page after the other, each with a limit of its
own, until there is no cursor. -/
def follow (fetch : Option C → L → Except E (Page A C)) : List L → Option C → Except E (List A)
  | [], _ => .ok []
  | limit :: limits, after =>
      match fetch after limit with
      | .error error => .error error
      | .ok page =>
          match page.next with
          | none => .ok page.items
          | some cursor => (follow fetch limits (some cursor)).map (page.items ++ ·)

/-- Every page is a slice of the sequence that begins where its cursor stands. -/
structure Slices (fetch : Option C → L → Except E (Page A C)) (items : List A)
    (place : Option C → ℕ) : Prop where
  isPrefix : ∀ {after limit page}, fetch after limit = .ok page →
    page.items <+: items.drop (place after)
  last : ∀ {after limit page}, fetch after limit = .ok page → page.next = none →
    page.items = items.drop (place after)
  further : ∀ {after limit page cursor}, fetch after limit = .ok page → page.next = some cursor →
    page.items ≠ [] ∧ place (some cursor) = place after + page.items.length

variable {fetch : Option C → L → Except E (Page A C)} {items read : List A}
  {place : Option C → ℕ} {limits : List L} {after : Option C}

/-- A reader who asks often enough reads everything, in its order and once. -/
theorem Slices.follow_eq (hslices : Slices fetch items place)
    (hread : follow fetch limits after = .ok read)
    (henough : items.length - place after < limits.length) : read = items.drop (place after) := by
  induction limits generalizing after read with
  | nil => exact absurd henough (Nat.not_lt_zero _)
  | cons limit limits ih =>
      rw [follow] at hread
      split at hread
      · cases hread
      · next page hpage =>
          split at hread
          · next hnext =>
              obtain rfl := Except.ok.inj hread
              exact hslices.last hpage hnext
          · next cursor hnext =>
              obtain ⟨hsome, hplace⟩ := hslices.further hpage hnext
              have hlength := List.length_pos_iff.mpr hsome
              cases hrest : follow fetch limits (some cursor) with
              | error error =>
                  rw [hrest] at hread
                  cases hread
              | ok rest =>
                  rw [hrest] at hread
                  obtain rfl := Except.ok.inj hread
                  have hprefix := hslices.isPrefix hpage
                  have hroom := hprefix.length_le
                  rw [List.length_drop] at hroom
                  rw [List.length_cons] at henough
                  have htail := ih hrest (by omega)
                  rw [hplace, ← List.drop_drop] at htail
                  obtain ⟨tail, htail'⟩ := hprefix
                  rw [← htail', List.drop_left] at htail
                  rw [htail]
                  exact htail'

/-- A reader fails only with a page that fails, at a cursor that pages lead to. -/
theorem follow_error {error : E} (reached : Option C → Prop)
    (hnext : ∀ after limit page cursor, reached after → fetch after limit = .ok page →
      page.next = some cursor → reached (some cursor))
    (hafter : reached after) (hfailed : follow fetch limits after = .error error) :
    ∃ cursor, reached cursor ∧ ∃ limit ∈ limits, fetch cursor limit = .error error := by
  induction limits generalizing after with
  | nil => cases hfailed
  | cons limit limits ih =>
      rw [follow] at hfailed
      split at hfailed
      · next error' hpage =>
          obtain rfl := Except.error.inj hfailed
          exact ⟨after, hafter, limit, List.mem_cons_self, hpage⟩
      · next page hpage =>
          split at hfailed
          · cases hfailed
          · next cursor hcursor =>
              cases hrest : follow fetch limits (some cursor) with
              | ok rest =>
                  rw [hrest] at hfailed
                  cases hfailed
              | error error' =>
                  rw [hrest] at hfailed
                  obtain rfl := Except.error.inj hfailed
                  obtain ⟨cursor', hreached, limit', hmem, hpage'⟩ :=
                    ih (hnext after limit page cursor hafter hpage hcursor) hrest
                  exact ⟨cursor', hreached, limit', List.mem_cons_of_mem _ hmem, hpage'⟩

end Follow

end Mews.Cursors
