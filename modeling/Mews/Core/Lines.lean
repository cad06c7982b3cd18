import Mathlib.Data.List.TakeWhile

/-!
# Lines

A sequence is cut into lines after each delimiter; what comes after the last one is an
unfinished line.  A reader takes a sequence in pieces, each a line with its delimiter or
a part that is lost.  It returns the complete lines within a limit if and only if it
begins each line that it returns where a line begins.
-/

namespace Mews.Lines

variable {α β : Type*} [DecidableEq α]

def newline : UInt8 := 10

section Splitting

variable (delimiter : α)

/-- The lines that the items complete, after the beginning of a line. -/
def split (begun : List α) : List α → List (List α)
  | [] => []
  | item :: items =>
      if item = delimiter then (begun ++ [item]) :: split [] items
      else split (begun ++ [item]) items

/-- The line that the items leave unfinished. -/
def unfinished (begun : List α) : List α → List α
  | [] => begun
  | item :: items =>
      if item = delimiter then unfinished [] items else unfinished (begun ++ [item]) items

/-- The complete lines of a sequence. -/
def complete (items : List α) : List (List α) := split delimiter [] items

variable {delimiter} {begun items more : List α}

attribute [local simp] split unfinished

theorem split_append :
    split delimiter begun (items ++ more) =
      split delimiter begun items ++ split delimiter (unfinished delimiter begun items) more := by
  induction items generalizing begun with
  | nil => rfl
  | cons item items ih =>
      simp only [List.cons_append, split, unfinished]
      split_ifs with hitem
      · rw [ih, List.cons_append]
      · exact ih

theorem unfinished_append :
    unfinished delimiter begun (items ++ more) =
      unfinished delimiter (unfinished delimiter begun items) more := by
  induction items generalizing begun with
  | nil => rfl
  | cons item items ih =>
      simp only [List.cons_append, unfinished]
      split_ifs with hitem
      · exact ih
      · exact ih

theorem split_of_notMem (begun : List α) (hitems : delimiter ∉ items) :
    split delimiter begun items = [] ∧ unfinished delimiter begun items = begun ++ items := by
  induction items generalizing begun with
  | nil => exact ⟨rfl, (List.append_nil begun).symm⟩
  | cons item items ih =>
      rw [List.mem_cons, not_or] at hitems
      have hnow : item ≠ delimiter := fun hsame => hitems.1 hsame.symm
      simp only [split, unfinished, if_neg hnow]
      have hrest := ih (begun ++ [item]) hitems.2
      rw [List.append_assoc] at hrest
      exact hrest

theorem split_delimited (begun : List α) (hitems : delimiter ∉ items) :
    split delimiter begun (items ++ [delimiter]) = [begun ++ (items ++ [delimiter])] ∧
      unfinished delimiter begun (items ++ [delimiter]) = [] := by
  obtain ⟨hsplit, hunfinished⟩ := split_of_notMem begun hitems
  rw [split_append, unfinished_append, hsplit, hunfinished]
  simp [split, unfinished]

/-- The items through the first delimiter. -/
theorem takeWhile_prefix_of_mem (hmem : delimiter ∈ items) :
    items.takeWhile (· ≠ delimiter) ++ [delimiter] <+: items := by
  induction items with
  | nil => exact absurd hmem List.not_mem_nil
  | cons item items ih =>
      by_cases hitem : item = delimiter
      · rw [List.takeWhile_cons_of_neg (by simpa using hitem), hitem]
        exact ⟨items, rfl⟩
      · rw [List.takeWhile_cons_of_pos (by simpa using hitem), List.cons_append]
        exact (List.prefix_cons_inj item).mpr
          (ih ((List.mem_cons.mp hmem).resolve_left fun hsame => hitem hsame.symm))

theorem notMem_takeWhile : delimiter ∉ items.takeWhile (· ≠ delimiter) := by
  intro hmem
  have hitem := List.mem_takeWhile_imp hmem
  exact of_decide_eq_true hitem rfl

end Splitting

section Taking

variable (delimiter : α) (limit : ℕ) (encoded available : List α)

/-- What `read_until` takes of what is available to `take(limit)`, after what it has
taken. -/
def takeUntil : List α :=
  let within := available.take (limit - encoded.length)
  if delimiter ∈ within then within.takeWhile (· ≠ delimiter) ++ [delimiter] else within

/-- `read_until` goes on: it is neither at the end, nor at a delimiter, nor at the limit. -/
def GoesOn (used : List α) : Prop :=
  used ≠ [] ∧ delimiter ∉ used ∧ (encoded ++ used).length ≠ limit

instance (used : List α) : Decidable (GoesOn delimiter limit encoded used) :=
  inferInstanceAs (Decidable (_ ∧ _ ∧ _))

variable {delimiter limit encoded available}

theorem takeUntil_prefix : takeUntil delimiter limit encoded available <+: available := by
  have hwithin := List.take_prefix (limit - encoded.length) available
  rw [takeUntil]
  split_ifs with hmem
  · exact (takeWhile_prefix_of_mem hmem).trans hwithin
  · exact hwithin

theorem length_takeUntil_le : (takeUntil delimiter limit encoded available).length ≤
    limit - encoded.length := by
  have hlength := List.length_take_le (limit - encoded.length) available
  rw [takeUntil]
  split_ifs with hmem
  · exact (takeWhile_prefix_of_mem hmem).length_le.trans hlength
  · exact hlength

theorem takeUntil_ne_nil (hlimit : encoded.length < limit) (havailable : available ≠ []) :
    takeUntil delimiter limit encoded available ≠ [] := by
  rw [takeUntil]
  split_ifs with hmem
  · exact List.append_ne_nil_of_right_ne_nil _ (List.cons_ne_nil _ _)
  · intro hnil
    rw [List.take_eq_nil_iff] at hnil
    rcases hnil with hzero | hnil
    · omega
    · exact havailable hnil

/-- What was taken ends with its only delimiter, or has none. -/
theorem takeUntil_cases (hencoded : delimiter ∉ encoded) :
    (∃ text, delimiter ∉ text ∧
        encoded ++ takeUntil delimiter limit encoded available = text ++ [delimiter]) ∨
      delimiter ∉ encoded ++ takeUntil delimiter limit encoded available := by
  rw [takeUntil]
  split_ifs with hmem
  · left
    refine ⟨encoded ++ (available.take (limit - encoded.length)).takeWhile (· ≠ delimiter), ?_,
      (List.append_assoc _ _ _).symm⟩
    rw [List.mem_append, not_or]
    exact ⟨hencoded, notMem_takeWhile⟩
  · right
    rw [List.mem_append, not_or]
    exact ⟨hencoded, hmem⟩

/-- What `read_until` has taken of what was available. -/
structure ReadsUntil (delimiter : α) (limit : ℕ) (encoded available used : List α) : Prop where
  begins : used <+: available
  length_le : used.length ≤ limit - encoded.length
  ne_nil : encoded.length < limit → available ≠ [] → used ≠ []
  ends : delimiter ∉ encoded →
    (∃ text, delimiter ∉ text ∧ encoded ++ used = text ++ [delimiter]) ∨
      delimiter ∉ encoded ++ used

theorem readsUntil_takeUntil (delimiter : α) (limit : ℕ) (encoded available : List α) :
    ReadsUntil delimiter limit encoded available
      (takeUntil delimiter limit encoded available) where
  begins := takeUntil_prefix
  length_le := length_takeUntil_le
  ne_nil := takeUntil_ne_nil
  ends := takeUntil_cases

omit [DecidableEq α] in
/-- A read that does not go on is at the end of a line or at the limit. -/
theorem ReadsUntil.ended {used : List α} (h : ReadsUntil delimiter limit encoded available used)
    (hencoded : delimiter ∉ encoded) (hused : used ≠ [])
    (hended : ¬GoesOn delimiter limit encoded used) :
    (∃ text, delimiter ∉ text ∧ encoded ++ used = text ++ [delimiter]) ∨
      delimiter ∉ encoded ++ used ∧ (encoded ++ used).length = limit := by
  apply (h.ends hencoded).imp_right
  intro hnone
  refine ⟨hnone, ?_⟩
  by_contra hother
  exact hended ⟨hused, fun hmem => hnone (List.mem_append_right _ hmem), hother⟩

end Taking

/-- What a reader makes of the items that it takes at a time. -/
inductive Piece (α : Type*) where
  | line (items : List α)
  | lost (items : List α)
  deriving DecidableEq

namespace Piece

def items : Piece α → List α
  | line items => items
  | lost items => items

def line? : Piece α → Option (List α)
  | line items => some items
  | lost _ => none

/-- A piece is a line within the limit, a part of one or a line that is too long. -/
def Fits (delimiter : α) (limit : ℕ) : Piece α → Prop
  | line items => items.length ≤ limit ∧ ∃ text, delimiter ∉ text ∧ items = text ++ [delimiter]
  | lost items => delimiter ∉ items ∨
      limit < items.length ∧ ∃ text, delimiter ∉ text ∧ items = text ++ [delimiter]

end Piece

/-- The items taken in the pieces. -/
def taken (pieces : List (Piece α)) : List α := pieces.flatMap Piece.items

/-- The lines returned. -/
def returned (pieces : List (Piece α)) : List (List α) := pieces.filterMap Piece.line?

omit [DecidableEq α] in
theorem returned_append (pieces more : List (Piece α)) :
    returned (pieces ++ more) = returned pieces ++ returned more := List.filterMap_append

omit [DecidableEq α] in
theorem taken_append (pieces more : List (Piece α)) :
    taken (pieces ++ more) = taken pieces ++ taken more := List.flatMap_append

/-- No line is returned without a part of it that was lost before, harmless parts apart. -/
def Whole (delimiter : α) (Harmless : List α → List α → Prop) :
    List α → List (Piece α) → Prop
  | _, [] => True
  | lost, .line items :: pieces =>
      (lost = [] ∨ Harmless lost items) ∧ Whole delimiter Harmless [] pieces
  | lost, .lost items :: pieces =>
      Whole delimiter Harmless (unfinished delimiter lost items) pieces

section Returned

variable {delimiter : α} {limit : ℕ} {pieces : List (Piece α)} {lost : List α}

/-- A lost piece completes no line within the limit. -/
theorem filter_split_lost {items : List α}
    (hfits : (Piece.lost items).Fits delimiter limit) :
    (split delimiter lost items).filter (·.length ≤ limit) = [] := by
  cases hfits with
  | inl hnotMem => rw [(split_of_notMem _ hnotMem).1, List.filter_nil]
  | inr hlong =>
      obtain ⟨hlimit, text, htext, rfl⟩ := hlong
      rw [(split_delimited _ htext).1, List.filter_cons_of_neg]
      · rfl
      · simp only [List.length_append] at hlimit ⊢
        simp only [decide_eq_true_eq]
        omega

theorem split_taken_line {items : List α}
    (hfits : (Piece.line items).Fits delimiter limit) :
    split delimiter lost (taken (.line items :: pieces)) =
      (lost ++ items) :: split delimiter [] (taken pieces) := by
  obtain ⟨-, text, htext, rfl⟩ := hfits
  have hcut := split_delimited lost htext
  rw [taken, List.flatMap_cons, Piece.items, split_append, hcut.1, hcut.2]
  rfl

theorem filter_split_taken_lost {items : List α}
    (hfits : (Piece.lost items).Fits delimiter limit) :
    (split delimiter lost (taken (.lost items :: pieces))).filter (·.length ≤ limit) =
      (split delimiter (unfinished delimiter lost items) (taken pieces)).filter
        (·.length ≤ limit) := by
  rw [taken, List.flatMap_cons, Piece.items, split_append, List.filter_append,
    filter_split_lost hfits, List.nil_append]
  rfl

/-- At least as many lines are returned as are complete within the limit. -/
theorem length_filter_split_le (lost : List α)
    (hfits : ∀ piece ∈ pieces, piece.Fits delimiter limit) :
    ((split delimiter lost (taken pieces)).filter (·.length ≤ limit)).length ≤
      (returned pieces).length := by
  induction pieces generalizing lost with
  | nil => exact Nat.le_refl 0
  | cons piece pieces ih =>
      obtain ⟨hpiece, hpieces⟩ := List.forall_mem_cons.mp hfits
      cases piece with
      | line items =>
          rw [split_taken_line hpiece]
          have hrest := ih [] hpieces
          have hnow := List.length_filter_le (fun line => decide (line.length ≤ limit))
            [lost ++ items]
          rw [← List.singleton_append, List.filter_append, List.length_append]
          simp only [returned, List.filterMap_cons, Piece.line?, List.length_cons,
            List.length_nil] at hrest hnow ⊢
          omega
      | lost items =>
          rw [filter_split_taken_lost hpiece]
          exact ih _ hpieces

/-- The lines returned read as the complete lines within the limit if and only if no part
of a line that is returned was lost, unless the line reads the same without it. -/
theorem map_returned_iff (lost : List α) {read : List α → β} {Harmless : List α → List α → Prop}
    (hread : ∀ lost text, lost ≠ [] →
      (read (text ++ [delimiter]) = read (lost ++ (text ++ [delimiter])) ↔
        Harmless lost (text ++ [delimiter])))
    (hshort : ∀ lost line, Harmless lost line → (lost ++ line).length ≤ limit)
    (hfits : ∀ piece ∈ pieces, piece.Fits delimiter limit) :
    (returned pieces).map read =
        ((split delimiter lost (taken pieces)).filter (·.length ≤ limit)).map read ↔
      Whole delimiter Harmless lost pieces := by
  induction pieces generalizing lost with
  | nil => exact iff_of_true rfl trivial
  | cons piece pieces ih =>
      obtain ⟨hpiece, hpieces⟩ := List.forall_mem_cons.mp hfits
      cases piece with
      | lost items =>
          rw [filter_split_taken_lost hpiece, Whole]
          exact ih _ hpieces
      | line items =>
          rw [split_taken_line hpiece, Whole, ← ih [] hpieces]
          change (items :: returned pieces).map read = _ ↔ _
          by_cases hlength : (lost ++ items).length ≤ limit
          · rw [List.filter_cons_of_pos (by simpa using hlength), List.map_cons, List.map_cons,
              List.cons.injEq]
            apply and_congr_left'
            by_cases hlost : lost = []
            · rw [hlost, List.nil_append]
              exact iff_of_true rfl (Or.inl rfl)
            · obtain ⟨-, text, -, rfl⟩ := hpiece
              rw [hread lost text hlost, or_iff_right hlost]
          · rw [List.filter_cons_of_neg (by simpa using hlength)]
            have hcount := length_filter_split_le [] hpieces
            apply iff_of_false
            · -- One line more is returned than there are.
              intro hsame
              have hlengths := congrArg List.length hsame
              rw [List.length_map, List.length_map, List.length_cons] at hlengths
              omega
            · rintro ⟨hbegun | hharmless, -⟩
              · rw [hbegun, List.nil_append] at hlength
                exact hlength hpiece.1
              · exact hlength (hshort lost items hharmless)

end Returned

end Mews.Lines
